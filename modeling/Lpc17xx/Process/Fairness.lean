import Lpc17xx.Process.Placement

/-!
# Turns on the run queue

Who has been on the run queue ever since a process was last selected is kept beside the
scheduler.  The timer sends a process behind all of them; a wakeup puts it in front, and
two processes that wake each other keep a third one waiting for ever.  Nobody is passed
over as long as no process is woken while another has been waiting since its turn.
-/

namespace Lpc17xx.Process

open Lpc17xx.Link
open Lpc17xx.Transition

/-- The scheduler and, for every process, those that have been on the run queue without a
break since it was last selected. -/
structure Watched where
  scheduler : Scheduler
  since : Task → List Task

namespace Watched

/-- Before `process_init`. -/
def start (idleState : ProcState) : Watched where
  scheduler := .start idleState
  since := fun _ => []

/-- A selection begins a new turn; whoever leaves the run queue is struck out. -/
def note (s : Watched) (event : SchedEvent) (after : Scheduler) (task : Task) : List Task :=
  if event = .pendSv ∧ after.currentTsk = some task then after.runqueue
  else (s.since task).filter (· ∈ after.runqueue)

def step : Step Watched SchedEvent
  | s, event => (s.scheduler.step event).map fun after => ⟨after, s.note event after⟩

/-- Of those that have been on the run queue since the last selection of the process that
is selected, none is left there. -/
def Fair (before : Watched) (event : SchedEvent) (after : Watched) : Prop :=
  event = .pendSv → ∀ task, after.scheduler.currentTsk = some task →
    ∀ other ∈ before.since task, other ∉ after.scheduler.runqueue

/-- No handler wakes the process that is just going to sleep, and no process is woken while
another one has been on the run queue since its last selection. -/
def Orderly (s : Watched) (event : SchedEvent) : Prop :=
  s.scheduler.SparesCurrent event ∧
    ∀ waitq, event = .wakeup waitq ∨ event = .irqWakeup waitq →
      ∀ task ∈ s.scheduler.waitqs waitq, s.since task = []

/-- On the run queue, whoever has waited since the last turn of a process is in front of
it. -/
structure Turns (s : Watched) : Prop where
  placed : s.scheduler.Placed
  behind : s.scheduler.runqueue.Pairwise fun task other => other ∉ s.since task
  there : ∀ task, ∀ other ∈ s.since task, other ∈ s.scheduler.runqueue
  self : ∀ task, task ∉ s.since task
  fresh : ∀ number, s.scheduler.spawned ≤ number → s.since (.proc number) = []

theorem turns_start (idleState : ProcState) : (start idleState).Turns where
  placed := Scheduler.placed_start idleState
  behind := .nil
  there := fun _ _ member => absurd member List.not_mem_nil
  self := fun _ => List.not_mem_nil
  fresh := fun _ _ => rfl

/-- `waitqueue_wakeup` puts the processes in front of the run queue, by induction on the
nodes that are left. -/
theorem runqueue_wakeAll {s : Scheduler} {waitq : Nat} {nodes : List Task} (placed : s.Placed)
    (left : s.waitqs waitq = nodes)
    (spares : ∀ current, s.currentTsk = some current → current ∉ nodes) :
    (Scheduler.wakeAll waitq nodes s).runqueue = nodes.reverse ++ s.runqueue ∧
      (Scheduler.wakeAll waitq nodes s).spawned = s.spawned := by
  induction nodes generalizing s with
  | nil => exact ⟨rfl, rfl⟩
  | cons task rest ih =>
      have other : s.currentTsk ≠ some task := fun current =>
        spares task current List.mem_cons_self
      have asleep : task ∈ s.waitqueue := by
        apply placed.waiter waitq
        rw [left]
        exact List.mem_cons_self
      have woken := placed.wakeOne left other
      have runqueue : (s.processWakeup task).runqueue = task :: s.runqueue := by
        rw [placed.processWakeup_eq asleep]
      rcases ih woken (Function.update_self _ _ _) fun current isCurrent inRest =>
        spares current isCurrent (List.mem_cons_of_mem task inRest) with ⟨queue, spawned⟩
      constructor
      · refine queue.trans ?_
        rw [List.reverse_cons, List.append_assoc, List.singleton_append]
        exact congrArg (rest.reverse ++ ·) runqueue
      · exact spawned

/-- Every event but PendSV leaves the run queue as it is behind what it puts in front: a
new process, or those that it wakes. -/
theorem runqueue_of_step {s after : Scheduler} {event : SchedEvent} (placed : s.Placed)
    (spares : s.SparesCurrent event) (taken : s.step event = some after)
    (other : event ≠ .pendSv) :
    ∃ new, after.runqueue = new ++ s.runqueue ∧ s.spawned ≤ after.spawned ∧ ∀ task ∈ new,
      task = .proc s.spawned ∨ ∃ waitq, (event = .wakeup waitq ∨ event = .irqWakeup waitq) ∧
        task ∈ s.waitqs waitq := by
  have wakes {waitq : Nat} (called : event = .wakeup waitq ∨ event = .irqWakeup waitq)
      (awake : ∀ current, s.currentTsk = some current → current ∉ s.waitqs waitq) :
      ∃ new, (s.waitqueueWakeup waitq).runqueue = new ++ s.runqueue ∧
        s.spawned ≤ (s.waitqueueWakeup waitq).spawned ∧ ∀ task ∈ new,
          task = .proc s.spawned ∨ ∃ waitq, (event = .wakeup waitq ∨ event = .irqWakeup waitq) ∧
            task ∈ s.waitqs waitq := by
    rcases runqueue_wakeAll placed rfl awake with ⟨runqueue, spawned⟩
    exact ⟨_, runqueue, Nat.le_of_eq spawned.symm, fun task member =>
      .inr ⟨waitq, called, List.mem_reverse.mp member⟩⟩
  have still (same : after.runqueue = s.runqueue) (count : after.spawned = s.spawned) :
      ∃ new, after.runqueue = new ++ s.runqueue ∧ s.spawned ≤ after.spawned ∧ ∀ task ∈ new,
        task = .proc s.spawned ∨ ∃ waitq, (event = .wakeup waitq ∨ event = .irqWakeup waitq) ∧
          task ∈ s.waitqs waitq :=
    ⟨[], same, Nat.le_of_eq count.symm, fun _ member => absurd member List.not_mem_nil⟩
  cases event with
  | spawn =>
      rcases Option.ite_none_right_eq_some.mp taken with ⟨_, spawned⟩
      cases spawned
      exact ⟨[.proc s.spawned], rfl, Nat.le_succ _, fun task member =>
        .inl (List.mem_singleton.mp member)⟩
  | wait waitq =>
      rcases Option.map_eq_some_iff.mp taken with ⟨task, _, rfl⟩
      exact still rfl rfl
  | finish =>
      rcases Option.map_eq_some_iff.mp taken with ⟨task, _, rfl⟩
      exact still rfl rfl
  | raisePendSv =>
      rcases Option.bind_eq_some_iff.mp taken with ⟨current, _, raised⟩
      rcases Option.ite_none_right_eq_some.mp raised with ⟨_, raised⟩
      cases raised
      exact still rfl rfl
  | wakeup waitq =>
      rcases Option.map_eq_some_iff.mp taken with ⟨task, executing, rfl⟩
      apply wakes (.inl rfl)
      intro current isCurrent
      have same := Option.some.inj
        (isCurrent.symm.trans (Scheduler.executing_eq_some_iff.mp executing).1)
      rw [same]
      exact placed.not_waiting executing waitq
  | irqWakeup waitq =>
      cases taken
      exact wakes (.inr rfl) spares
  | timer =>
      cases taken
      exact still rfl rfl
  | pendSv => exact absurd rfl other
  | reap =>
      rcases Option.ite_none_right_eq_some.mp taken with ⟨_, reaped⟩
      cases reaped
      exact still rfl rfl

/-- The run queue that `pick_new_task` pops. -/
theorem runqueue_requeue (s : Scheduler) :
    s.requeue.runqueue = s.runqueue ∨
      ∃ current, s.currentTsk = some current ∧ s.requeue.runqueue = s.runqueue ++ [current] := by
  unfold Scheduler.requeue
  split
  · rename_i current isCurrent
    split
    · exact .inr ⟨current, isCurrent, rfl⟩
    · exact .inl rfl
  · exact .inl rfl

theorem spawned_requeue (s : Scheduler) : s.requeue.spawned = s.spawned := by
  unfold Scheduler.requeue
  split
  · split
    · rfl
    · rfl
  · rfl

section Step

variable {s : Watched} {after : Scheduler} {event : SchedEvent}

theorem Turns.grows (turns : s.Turns) (orderly : s.Orderly event)
    (taken : s.scheduler.step event = some after) (other : event ≠ .pendSv) :
    Turns ⟨after, s.note event after⟩ := by
  rcases runqueue_of_step turns.placed orderly.1 taken other with ⟨new, runqueue, more, origin⟩
  have same : s.note event after = s.since := by
    funext task
    rw [note, if_neg fun both => other both.1]
    apply List.filter_eq_self.mpr
    intro queued member
    have before := turns.there task queued member
    simpa [runqueue] using .inr before
  have unseen : ∀ task ∈ new, s.since task = [] := by
    intro task member
    rcases origin task member with rfl | ⟨waitq, called, woken⟩
    · exact turns.fresh _ (Nat.le_refl _)
    · exact orderly.2 waitq called task woken
  rw [same]
  constructor
  · exact turns.placed.step orderly.1 taken
  · change after.runqueue.Pairwise _
    rw [runqueue]
    refine List.pairwise_append.mpr ⟨?_, turns.behind, ?_⟩
    · apply List.pairwise_of_forall_mem_list
      intro task member other _
      rw [unseen task member]
      exact List.not_mem_nil
    · intro task member other _
      rw [unseen task member]
      exact List.not_mem_nil
  · intro task queued member
    change queued ∈ after.runqueue
    rw [runqueue]
    exact List.mem_append_right new (turns.there task queued member)
  · exact turns.self
  · intro number unborn
    exact turns.fresh number (Nat.le_trans more unborn)

/-- The order that was on the run queue holds for the one that is put behind it. -/
theorem Turns.requeued (turns : s.Turns) :
    s.scheduler.requeue.runqueue.Pairwise (fun task other => other ∉ s.since task) ∧
      s.scheduler.requeue.runqueue.Nodup ∧
      ∀ task, ∀ other ∈ s.since task, other ∈ s.scheduler.requeue.runqueue := by
  have nodup := turns.placed.nodup_runqueue
  rcases runqueue_requeue s.scheduler with same | ⟨current, isCurrent, back⟩
  · rw [same]
    exact ⟨turns.behind, nodup, turns.there⟩
  · have away := turns.placed.apart current isCurrent
    rw [back]
    refine ⟨List.pairwise_append.mpr ⟨turns.behind, List.pairwise_singleton _ _, ?_⟩, ?_, ?_⟩
    · intro task _ other last waits
      exact away (List.mem_singleton.mp last ▸ turns.there task other waits)
    · refine List.nodup_append.mpr ⟨nodup, List.nodup_singleton _, ?_⟩
      rintro task queued other last rfl
      exact away (List.mem_singleton.mp last ▸ queued)
    · intro task other waits
      exact List.mem_append_left _ (turns.there task other waits)

/-- `pick_new_task` pops the run queue, and takes the idle task if it is empty. -/
theorem pickNewTask_popped (s : Scheduler) :
    s.pickNewTask.runqueue = (listPop s.requeue.runqueue).2 ∧
      s.pickNewTask.currentTsk = some ((listPop s.requeue.runqueue).1.getD .idle) ∧
      s.pickNewTask.spawned = s.spawned :=
  ⟨rfl, rfl, spawned_requeue s⟩

/-- With nobody on the run queue nobody waits. -/
theorem Turns.picks_idle (turns : s.Turns) (empty : s.scheduler.requeue.runqueue = []) :
    Turns ⟨s.scheduler.pickNewTask, s.note .pendSv s.scheduler.pickNewTask⟩ ∧
      ∀ task, s.scheduler.pickNewTask.currentTsk = some task → s.since task = [] := by
  rcases pickNewTask_popped s.scheduler with ⟨runqueue, _, _⟩
  rcases turns.requeued with ⟨_, _, there⟩
  rw [empty] at runqueue there
  have nobody (task : Task) : s.since task = [] :=
    List.eq_nil_iff_forall_not_mem.mpr fun other waits =>
      List.not_mem_nil (there task other waits)
  have noted (task : Task) : s.note .pendSv s.scheduler.pickNewTask task = [] := by
    rw [note, nobody task, runqueue]
    exact ite_self _
  have none {task other : Task} : other ∉ s.note .pendSv s.scheduler.pickNewTask task := by
    rw [noted]
    exact List.not_mem_nil
  refine ⟨⟨turns.placed.pickNewTask, ?_, ?_, fun _ => none, ?_⟩, fun task _ => nobody task⟩
  · change s.scheduler.pickNewTask.runqueue.Pairwise _
    rw [runqueue]
    exact .nil
  · exact fun _ _ waits => absurd waits none
  · exact fun number _ => noted (.proc number)

/-- Who is selected begins a new turn with all that are left; the others' turns go on. -/
theorem note_picked {next : Task} {rest : List Task} (runqueue : after.runqueue = rest)
    (current : after.currentTsk = some next) (task : Task) :
    s.note .pendSv after task =
      if task = next then rest else (s.since task).filter (· ∈ rest) := by
  rw [note, current, runqueue]
  by_cases same : task = next
  · rw [if_pos ⟨rfl, congrArg some same.symm⟩, if_pos same]
  · rw [if_neg fun both => same (Option.some.inj both.2).symm, if_neg same]

/-- The one selected was the first, so nobody on the run queue had waited for its turn. -/
theorem Turns.picks_next (turns : s.Turns) {next : Task} {rest : List Task}
    (split : s.scheduler.requeue.runqueue = next :: rest) :
    Turns ⟨s.scheduler.pickNewTask, s.note .pendSv s.scheduler.pickNewTask⟩ ∧
      ∀ task, s.scheduler.pickNewTask.currentTsk = some task → s.since task = [] := by
  have placed := turns.placed.pickNewTask
  rcases pickNewTask_popped s.scheduler with ⟨runqueue, current, spawned⟩
  rcases turns.requeued with ⟨ordered, nodupQueue, there⟩
  rw [split] at runqueue current there ordered nodupQueue
  rcases List.nodup_cons.mp nodupQueue with ⟨once, nodupRest⟩
  rcases List.pairwise_cons.mp ordered with ⟨first, orderedRest⟩
  change s.scheduler.pickNewTask.runqueue = rest at runqueue
  change s.scheduler.pickNewTask.currentTsk = some next at current
  have noted := @note_picked s _ _ _ runqueue current
  have passed : s.since next = [] := by
    apply List.eq_nil_iff_forall_not_mem.mpr
    intro other waits
    rcases List.mem_cons.mp (there next other waits) with same | inRest
    · exact turns.self next (same ▸ waits)
    · exact first other inRest waits
  have own {other : Task} (waits : other ∈ s.note .pendSv s.scheduler.pickNewTask next) :
      other ∈ rest := by
    rwa [noted, if_pos rfl] at waits
  have others {task other : Task} (apart : task ≠ next)
      (waits : other ∈ s.note .pendSv s.scheduler.pickNewTask task) :
      other ∈ s.since task ∧ other ∈ rest := by
    rw [noted, if_neg apart] at waits
    rcases List.mem_filter.mp waits with ⟨before, queued⟩
    exact ⟨before, by simpa using queued⟩
  refine ⟨⟨placed, ?_, ?_, ?_, ?_⟩, ?_⟩
  · change s.scheduler.pickNewTask.runqueue.Pairwise _
    rw [runqueue]
    refine orderedRest.imp_of_mem ?_
    intro task other member _ behind waits
    have apart : task ≠ next := by
      rintro rfl
      exact once member
    exact behind (others apart waits).1
  · intro task other waits
    change other ∈ s.scheduler.pickNewTask.runqueue
    rw [runqueue]
    by_cases same : task = next
    · subst same
      exact own waits
    · exact (others same waits).2
  · intro task waits
    by_cases same : task = next
    · subst same
      exact once (own waits)
    · exact turns.self task (others same waits).1
  · intro number unborn
    change s.scheduler.pickNewTask.spawned ≤ number at unborn
    have apart : Task.proc number ≠ next := by
      rintro rfl
      exact absurd unborn (Nat.not_le_of_lt (placed.known number (.inr current)))
    rw [spawned] at unborn
    change s.note .pendSv s.scheduler.pickNewTask (.proc number) = []
    rw [noted, if_neg apart, turns.fresh number unborn]
    rfl
  · intro task isCurrent
    have same : task = next := Option.some.inj (isCurrent.symm.trans current)
    rw [same]
    exact passed

/-- Behind a selection, the one selected has been passed by everyone who waited. -/
theorem Turns.picks (turns : s.Turns) :
    Turns ⟨s.scheduler.pickNewTask, s.note .pendSv s.scheduler.pickNewTask⟩ ∧
      ∀ task, s.scheduler.pickNewTask.currentTsk = some task → s.since task = [] := by
  cases split : s.scheduler.requeue.runqueue with
  | nil => exact turns.picks_idle split
  | cons next rest => exact turns.picks_next split

theorem Turns.step {after : Watched} (turns : s.Turns) (orderly : s.Orderly event)
    (taken : Watched.step s event = some after) : after.Turns := by
  rcases Option.map_eq_some_iff.mp taken with ⟨scheduler, stepped, rfl⟩
  by_cases switch : event = .pendSv
  · subst switch
    rcases Option.ite_none_right_eq_some.mp stepped with ⟨_, picked⟩
    cases picked
    exact turns.picks.1
  · exact turns.grows orderly stepped switch

theorem Turns.fair {after : Watched} (turns : s.Turns)
    (taken : Watched.step s event = some after) : Fair s event after := by
  rcases Option.map_eq_some_iff.mp taken with ⟨scheduler, stepped, rfl⟩
  rintro rfl task current other waits
  rcases Option.ite_none_right_eq_some.mp stepped with ⟨_, picked⟩
  cases picked
  rw [turns.picks.2 task current] at waits
  exact absurd waits List.not_mem_nil

end Step

end Watched

/-- In every run in which no process is woken while another has been on the run queue since
its last selection, nobody who stays on the run queue is passed over twice. -/
theorem scheduler_fair (idleState : ProcState) (events : List SchedEvent)
    (orderly : Guarded Watched.step Watched.Orderly (Watched.start idleState) events) :
    Along Watched.step Watched.Fair (Watched.start idleState) events :=
  along_of_guarded (fun _ _ _ turns orderly taken => Watched.Turns.step turns orderly taken)
    (fun _ _ _ turns _ taken => Watched.Turns.fair turns taken)
    (Watched.turns_start idleState) orderly

/-- Two processes, of which the timer lets each run in its turn, and one of them sleeps and
is woken. -/
theorem scheduler_fair_example :
    Along Watched.step Watched.Fair (Watched.start .waiting)
      [.spawn, .spawn, .timer, .pendSv, .timer, .pendSv, .wait 0, .raisePendSv, .pendSv,
        .irqWakeup 0, .timer, .pendSv] := by
  apply scheduler_fair
  have calm (event : SchedEvent) (s : Watched) (notIrq : ∀ waitq, event ≠ .irqWakeup waitq)
      (notWakeup : ∀ waitq, event ≠ .wakeup waitq) : s.Orderly event := by
    constructor
    · cases event with
      | irqWakeup waitq => exact absurd rfl (notIrq waitq)
      | _ => trivial
    · rintro waitq (called | called)
      · exact absurd called (notWakeup waitq)
      · exact absurd called (notIrq waitq)
  rintro _ ⟨⟩
  refine ⟨calm _ _ (by simp) (by simp), ?_⟩
  rintro _ ⟨⟩
  refine ⟨calm _ _ (by simp) (by simp), ?_⟩
  rintro _ ⟨⟩
  refine ⟨calm _ _ (by simp) (by simp), ?_⟩
  rintro _ ⟨⟩
  refine ⟨calm _ _ (by simp) (by simp), ?_⟩
  rintro _ ⟨⟩
  refine ⟨calm _ _ (by simp) (by simp), ?_⟩
  rintro _ ⟨⟩
  refine ⟨calm _ _ (by simp) (by simp), ?_⟩
  rintro _ ⟨⟩
  refine ⟨calm _ _ (by simp) (by simp), ?_⟩
  rintro _ ⟨⟩
  refine ⟨calm _ _ (by simp) (by simp), ?_⟩
  rintro _ ⟨⟩
  refine ⟨calm _ _ (by simp) (by simp), ?_⟩
  rintro _ ⟨⟩
  refine ⟨?_, ?_⟩
  · constructor
    · rintro _ ⟨⟩
      decide
    · rintro waitq (called | called)
      · contradiction
      · cases called
        decide
  rintro _ ⟨⟩
  refine ⟨calm _ _ (by simp) (by simp), ?_⟩
  rintro _ ⟨⟩
  refine ⟨calm _ _ (by simp) (by simp), ?_⟩
  trivial

/-- Of three processes two sleep and wake each other, and the third is not selected. -/
def wokenInTurn : List SchedEvent :=
  [.spawn, .spawn, .spawn, .timer, .pendSv, .wait 0, .raisePendSv, .pendSv,
    .wakeup 0, .wait 1, .raisePendSv, .pendSv, .wakeup 1, .wait 0, .raisePendSv, .pendSv]

theorem scheduler_not_fair_wokenInTurn :
    ¬Along Watched.step Watched.Fair (Watched.start .waiting) wokenInTurn := by
  intro fair
  rcases fair.drop 15 rfl _ rfl with ⟨passed, _⟩
  exact absurd (passed rfl (.proc 1) rfl (.proc 0)) (by decide)

end Lpc17xx.Process
