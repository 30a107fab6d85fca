import Lpc17xx.Heap.Division
import Lpc17xx.Process.Kept
import Lpc17xx.System.Memory

/-!
# The memory of processes

`create_process` allocates a process and its stack, and the idle task frees both when the
process has ended.  The scheduler and the allocator together: what the processes that are
held own is live, and each of them is freed once.
-/

namespace Lpc17xx.System

open Lpc17xx.Heap
open Lpc17xx.Link
open Lpc17xx.Memory
open Lpc17xx.Process
open Lpc17xx.Transition
open Lpc17xx.Tcp (memHeapSize)

/-- The scheduler and the heap, and for each process the addresses of its `process_t` and
of its stack, which its memory holds.  `reaped` are the processes that were freed, the last
one first; nobody keeps it. -/
structure Processes where
  scheduler : Scheduler
  heap : HeapState
  process : Nat → Nat
  stackAlloc : Nat → Nat
  reaped : List Nat

/-- An event of the scheduler, or of the heap: a call of the rest of the program, or a write
of a process or of an exception to memory. -/
inductive ProcessesEvent where
  | scheduler (event : SchedEvent)
  | heap (event : HeapEvent)
  deriving DecidableEq

namespace Processes

variable (place : Heap.Place)

/-- The two calls of `get_mem` in `create_process`. -/
def createProcess (heap : HeapState) : Option (HeapState × Nat × Nat) := do
  let (process, memory) ← place.getMem heap.memory processSize
  let (stackAlloc, memory) ← place.getMem memory stackSz
  some ({ memory, live := (stackAlloc, stackSz) :: (process, processSize) :: heap.live },
    process, stackAlloc)

/-- The calls of `free_mem` in the idle task, on the process that it has popped. -/
def freeProcess (s : Processes) (number : Nat) : Processes :=
  { s with
    heap :=
      { memory := place.freeMem (place.freeMem s.heap.memory (s.stackAlloc number))
          (s.process number)
        live := (s.heap.live.filter fun entry => entry.1 ≠ s.stackAlloc number).filter
          fun entry => entry.1 ≠ s.process number }
    reaped := number :: s.reaped }

/-- One event.  The idle task is not on the dead queue. -/
def step : Step Processes ProcessesEvent
  | s, .scheduler .spawn => do
      let (heap, process, stackAlloc) ← createProcess place s.heap
      (s.scheduler.step .spawn).map fun scheduler =>
        { s with
          scheduler, heap
          process := Function.update s.process s.scheduler.spawned process
          stackAlloc := Function.update s.stackAlloc s.scheduler.spawned stackAlloc }
  | s, .scheduler .reap =>
      (s.scheduler.step .reap).bind fun scheduler =>
        match (listPop s.scheduler.deadqueue).1 with
        | none => some { s with scheduler }
        | some .idle => none
        | some (.proc number) => some { s.freeProcess place number with scheduler }
  | s, .scheduler event => (s.scheduler.step event).map fun scheduler => { s with scheduler }
  | s, .heap event => (s.heap.step place event).map fun heap => { s with heap }

/-- An interrupt does not wake the current process, and nobody else frees the memory of a
process. -/
def Admits (s : Processes) : ProcessesEvent → Prop
  | .scheduler event => s.scheduler.SparesCurrent event
  | .heap (.freeMem ptr) => ∀ number < s.scheduler.spawned, number ∉ s.reaped →
      ptr ≠ s.process number ∧ ptr ≠ s.stackAlloc number
  | .heap _ => True

/-- Before `process_init`, with whatever has been allocated. -/
def start (idleState : ProcState) (heap : HeapState) : Processes where
  scheduler := Scheduler.start idleState
  heap
  process := fun _ => 0
  stackAlloc := fun _ => 0
  reaped := []

/-- What is freed is live: the idle task passes no pointer to `free_mem` that was not
allocated or that has been freed, and it finds no idle task to free. -/
def ReapsLive (s : Processes) (event : ProcessesEvent) (_ : Processes) : Prop :=
  event = .scheduler .reap → ∀ task, (listPop s.scheduler.deadqueue).1 = some task →
    ∃ number, task = .proc number ∧ (s.process number, processSize) ∈ s.heap.live ∧
      (s.stackAlloc number, stackSz) ∈ s.heap.live ∧ number ∉ s.reaped

/-- The processes that are held own live memory, each its own, and the others that were
spawned have been freed once. -/
structure Owned (place : Heap.Place) (s : Processes) : Prop where
  kept : s.scheduler.Kept
  sound : s.heap.Sound place
  process : ∀ number, s.scheduler.Held (.proc number) →
    (s.process number, processSize) ∈ s.heap.live
  stackAlloc : ∀ number, s.scheduler.Held (.proc number) →
    (s.stackAlloc number, stackSz) ∈ s.heap.live
  apart : ∀ number other, s.scheduler.Held (.proc number) → s.scheduler.Held (.proc other) →
    s.process number = s.process other ∨ s.stackAlloc number = s.stackAlloc other →
    number = other
  counted : ∀ number, number < s.scheduler.spawned ↔
    s.scheduler.Held (.proc number) ∨ number ∈ s.reaped
  once : ∀ number ∈ s.reaped, ¬s.scheduler.Held (.proc number)
  nodup : s.reaped.Nodup

section Steps

variable {place : Heap.Place} {s target : Processes} {heap : HeapState}
  {scheduler : Scheduler} {event : ProcessesEvent} {number : Nat}

theorem owned_start (idleState : ProcState) (sound : heap.Sound place) :
    (start idleState heap).Owned place where
  kept := Scheduler.kept_start idleState
  sound := sound
  process := fun _ held => absurd held (Scheduler.not_held_start idleState)
  stackAlloc := fun _ held => absurd held (Scheduler.not_held_start idleState)
  apart := fun _ _ held => absurd held (Scheduler.not_held_start idleState)
  counted := fun _ => ⟨nofun, fun either => either.elim
    (fun held => absurd held (Scheduler.not_held_start idleState)) nofun⟩
  once := nofun
  nodup := List.nodup_nil

/-- Live pointers differ, and none of them is handed out again. -/
theorem nodup_live (sound : heap.Sound place) : (heap.live.map Prod.fst).Nodup := by
  rcases sound with ⟨_, _, holds⟩
  exact holds.nodup

theorem eq_of_live (sound : heap.Sound place) {ptr : Nat} {size size' : UInt32}
    (first : (ptr, size) ∈ heap.live) (second : (ptr, size') ∈ heap.live) : size = size' :=
  congrArg Prod.snd (List.inj_on_of_nodup_map (nodup_live sound) first second rfl)

theorem getMem_live (sound : heap.Sound place) {size : UInt32} (positive : size ≠ 0) {ptr : Nat}
    {memory : Bytes} (got : place.getMem heap.memory size = some (ptr, memory)) :
    HeapState.Sound place ⟨memory, (ptr, size) :: heap.live⟩ := by
  have notNull : ptr ≠ 0 := by
    rcases sound with ⟨blocks, nodes, holds⟩
    rcases getMem_spec holds.rep holds.coalesced positive got with
      ⟨a, _, _, _, _, _, rfl, _, _⟩
    exact Nat.succ_ne_zero _
  have taken : heap.step place (.getMem size) = some ⟨memory, (ptr, size) :: heap.live⟩ := by
    change (place.getMem heap.memory size).map _ = _
    rw [got, Option.map_some]
    simp only [if_neg notNull]
  exact HeapState.sound_step _ _ _ sound taken

theorem createProcess_spec (sound : heap.Sound place) {heap' : HeapState} {process stackAlloc : Nat}
    (created : createProcess place heap = some (heap', process, stackAlloc)) :
    heap'.Sound place ∧
      heap'.live = (stackAlloc, stackSz) :: (process, processSize) :: heap.live := by
  obtain ⟨⟨process', memory⟩, first, created⟩ := Option.bind_eq_some_iff.mp created
  obtain ⟨⟨stackAlloc', memory'⟩, second, created⟩ := Option.bind_eq_some_iff.mp created
  cases created
  have sound' := getMem_live sound (by decide) first
  exact ⟨@getMem_live place ⟨memory, _⟩ sound' stackSz (by decide) _ _ second, rfl⟩

theorem Owned.spawn (owned : s.Owned place) {process stackAlloc : Nat}
    (created : createProcess place s.heap = some (heap, process, stackAlloc))
    (spawned : s.scheduler.step .spawn = some scheduler) :
    Owned place { s with
      scheduler, heap
      process := Function.update s.process s.scheduler.spawned process
      stackAlloc := Function.update s.stackAlloc s.scheduler.spawned stackAlloc } := by
  rcases createProcess_spec owned.sound created with ⟨sound, live⟩
  have spares : s.scheduler.SparesCurrent .spawn := trivial
  rcases owned.kept.step spares spawned with ⟨kept, held⟩
  have count : scheduler.spawned = s.scheduler.spawned + 1 := by
    rcases Option.ite_none_right_eq_some.mp spawned with ⟨_, same⟩
    cases same
    rfl
  have older (number : Nat) (before : s.scheduler.Held (.proc number)) :
      number ≠ s.scheduler.spawned := Nat.ne_of_lt (owned.kept.known before)
  have fresh := nodup_live sound
  rw [live, List.map_cons, List.map_cons, List.nodup_cons, List.nodup_cons] at fresh
  have process_ne (number : Nat) (before : s.scheduler.Held (.proc number)) :
      s.process number ≠ process := by
    rintro rfl
    exact fresh.2.1 (List.mem_map_of_mem (owned.process number before))
  have stackAlloc_ne (number : Nat) (before : s.scheduler.Held (.proc number)) :
      s.stackAlloc number ≠ stackAlloc := by
    rintro rfl
    exact fresh.1 (List.mem_cons_of_mem _
      (List.mem_map_of_mem (owned.stackAlloc number before)))
  refine ⟨kept, sound, fun number here => ?_, fun number here => ?_,
    fun number other here there same => ?_, fun number => ?_, fun number old here => ?_,
    owned.nodup⟩
  · dsimp only
    rw [live]
    rcases (held number).mp here with rfl | before
    · rw [Function.update_self]
      exact List.mem_cons_of_mem _ List.mem_cons_self
    · rw [Function.update_of_ne (older number before)]
      exact List.mem_cons_of_mem _ (List.mem_cons_of_mem _ (owned.process number before))
  · dsimp only
    rw [live]
    rcases (held number).mp here with rfl | before
    · rw [Function.update_self]
      exact List.mem_cons_self
    · rw [Function.update_of_ne (older number before)]
      exact List.mem_cons_of_mem _ (List.mem_cons_of_mem _ (owned.stackAlloc number before))
  · rcases (held number).mp here with rfl | before
    · rcases (held other).mp there with rfl | before'
      · rfl
      · simp only [Function.update_self, Function.update_of_ne (older other before')] at same
        rcases same with same | same
        · exact absurd same.symm (process_ne other before')
        · exact absurd same.symm (stackAlloc_ne other before')
    · rcases (held other).mp there with rfl | before'
      · simp only [Function.update_self, Function.update_of_ne (older number before)] at same
        rcases same with same | same
        · exact absurd same (process_ne number before)
        · exact absurd same (stackAlloc_ne number before)
      · simp only [Function.update_of_ne (older number before),
          Function.update_of_ne (older other before')] at same
        exact owned.apart number other before before' same
  · have counted := owned.counted number
    change number < scheduler.spawned ↔ _
    rw [count, held, Nat.lt_succ_iff_lt_or_eq, counted, Scheduler.HeldAfter]
    tauto
  · rcases (held number).mp here with rfl | before
    · exact Nat.lt_irrefl _ ((owned.counted _).mpr (.inr old))
    · exact owned.once number old before

/-- `free_mem` on the two pointers, one after the other. -/
theorem Owned.sound_freeProcess (owned : s.Owned place)
    (held : s.scheduler.Held (.proc number)) : (s.freeProcess place number).heap.Sound place := by
  have stackAlloc := owned.stackAlloc number held
  have process := owned.process number held
  have differ : s.process number ≠ s.stackAlloc number := by
    intro same
    rw [same] at process
    exact absurd (eq_of_live owned.sound process stackAlloc) (by decide)
  have first : s.heap.step place (.freeMem (s.stackAlloc number)) = some
      { memory := place.freeMem s.heap.memory (s.stackAlloc number)
        live := s.heap.live.filter fun entry => entry.1 ≠ s.stackAlloc number } :=
    if_pos (.inr (List.mem_map_of_mem stackAlloc))
  refine HeapState.sound_step _ (.freeMem (s.process number)) _
    (HeapState.sound_step _ _ _ owned.sound first) (if_pos (.inr ?_))
  exact List.mem_map.mpr ⟨_, List.mem_filter.mpr ⟨process, decide_eq_true differ⟩, rfl⟩

theorem Owned.reap (owned : s.Owned place) (reaped : s.scheduler.step .reap = some scheduler)
    (dead : (listPop s.scheduler.deadqueue).1 = some (.proc number)) :
    Owned place { s.freeProcess place number with scheduler } := by
  have spares : s.scheduler.SparesCurrent .reap := trivial
  rcases owned.kept.step spares reaped with ⟨kept, held⟩
  have head : s.scheduler.deadqueue.head? = some (.proc number) := by
    cases queue : s.scheduler.deadqueue with
    | nil => exact nomatch queue ▸ dead
    | cons task rest =>
        rw [queue] at dead
        exact dead
  have here : s.scheduler.Held (.proc number) :=
    .inl (Scheduler.mem_linked.mpr (.inr (.inr (List.mem_of_mem_head? head))))
  have count : scheduler.spawned = s.scheduler.spawned := by
    rcases Option.ite_none_right_eq_some.mp reaped with ⟨_, same⟩
    cases same
    rfl
  have left (other : Nat) (there : scheduler.Held (.proc other)) :
      s.scheduler.Held (.proc other) ∧ other ≠ number := by
    rcases (held other).mp there with ⟨before, apart⟩
    refine ⟨before, ?_⟩
    rintro rfl
    exact apart head
  have kept_live {ptr : Nat} {size : UInt32} (live : (ptr, size) ∈ s.heap.live)
      (process : ptr ≠ s.process number) (stackAlloc : ptr ≠ s.stackAlloc number) :
      (ptr, size) ∈ (s.freeProcess place number).heap.live :=
    List.mem_filter.mpr ⟨List.mem_filter.mpr ⟨live, decide_eq_true stackAlloc⟩,
      decide_eq_true process⟩
  have sizes : processSize ≠ stackSz := by decide
  refine ⟨kept, owned.sound_freeProcess here, fun other there => ?_, fun other there => ?_,
    fun other other' there there' => owned.apart other other' (left other there).1
      (left other' there').1, fun other => ?_, fun other old there => ?_, ?_⟩
  · rcases left other there with ⟨before, differ⟩
    have live := owned.process other before
    refine kept_live live ?_ ?_
    · exact fun same => differ (owned.apart other number before here (.inl same))
    · intro same
      have stackAlloc := owned.stackAlloc number here
      rw [← same] at stackAlloc
      exact sizes (eq_of_live owned.sound live stackAlloc)
  · rcases left other there with ⟨before, differ⟩
    have live := owned.stackAlloc other before
    refine kept_live live ?_ ?_
    · intro same
      have process := owned.process number here
      rw [← same] at process
      exact sizes (eq_of_live owned.sound process live)
    · exact fun same => differ (owned.apart other number before here (.inr same))
  · change other < scheduler.spawned ↔ scheduler.Held (.proc other) ∨ other ∈ number :: s.reaped
    rw [count, owned.counted, held, Scheduler.HeldAfter, head, List.mem_cons]
    by_cases same : other = number
    · subst same
      simp [here]
    · simp [same, Ne.symm same]
  · rcases List.mem_cons.mp old with rfl | older
    · exact (left other there).2 rfl
    · exact owned.once other older (left other there).1
  · exact List.nodup_cons.mpr ⟨fun older => owned.once number older here, owned.nodup⟩

/-- The rest of the program leaves the memory of processes allocated. -/
theorem Owned.heapEvent (owned : s.Owned place) {event : HeapEvent}
    (admitted : s.Admits (.heap event)) (taken : s.heap.step place event = some heap) :
    Owned place { s with heap } := by
  have still : ∀ ptr size, (ptr, size) ∈ s.heap.live → (∀ ptr', event = .freeMem ptr' →
      ptr ≠ ptr') → (ptr, size) ∈ heap.live := by
    intro ptr size live other
    cases event with
    | getMem size' =>
        rcases Option.map_eq_some_iff.mp taken with ⟨⟨ptr', memory⟩, _, rfl⟩
        dsimp only
        split
        · exact live
        · exact List.mem_cons_of_mem _ live
    | freeMem ptr' =>
        rcases Option.ite_none_right_eq_some.mp taken with ⟨_, freed⟩
        cases freed
        exact List.mem_filter.mpr ⟨live, decide_eq_true (other ptr' rfl)⟩
    | write address byte =>
        rcases Option.ite_none_right_eq_some.mp taken with ⟨_, written⟩
        cases written
        exact live
  have spared (number : Nat) (held : s.scheduler.Held (.proc number)) (ptr : Nat)
      (frees : event = .freeMem ptr) : s.process number ≠ ptr ∧ s.stackAlloc number ≠ ptr := by
    subst frees
    have old : number ∉ s.reaped := fun old => owned.once number old held
    rcases admitted number (owned.kept.known held) old with ⟨process, stackAlloc⟩
    exact ⟨process.symm, stackAlloc.symm⟩
  exact
    { owned with
      sound := HeapState.sound_step _ _ _ owned.sound taken
      process := fun number held => still _ _ (owned.process number held)
        fun ptr frees => (spared number held ptr frees).1
      stackAlloc := fun number held => still _ _ (owned.stackAlloc number held)
        fun ptr frees => (spared number held ptr frees).2 }

/-- The scheduler moves processes, but for spawning and freeing them. -/
theorem Owned.moves (owned : s.Owned place) {event : SchedEvent}
    (spares : s.scheduler.SparesCurrent event)
    (taken : s.scheduler.step event = some scheduler) (spawned : event ≠ .spawn)
    (alive : ∀ number, scheduler.Held (.proc number) ↔ s.scheduler.Held (.proc number)) :
    Owned place { s with scheduler } := by
  have count : scheduler.spawned = s.scheduler.spawned :=
    Scheduler.spawned_of_step taken spawned
  exact
    { kept := (owned.kept.step spares taken).1
      sound := owned.sound
      process := fun number held => owned.process number ((alive number).mp held)
      stackAlloc := fun number held => owned.stackAlloc number ((alive number).mp held)
      apart := fun number other held held' =>
        owned.apart number other ((alive number).mp held) ((alive other).mp held')
      counted := fun number => by
        change number < scheduler.spawned ↔ _
        rw [count, owned.counted, alive]
      once := fun number old held => owned.once number old ((alive number).mp held)
      nodup := owned.nodup }

theorem Owned.step (owned : s.Owned place) (admitted : s.Admits event)
    (taken : Processes.step place s event = some target) : target.Owned place := by
  cases event with
  | heap event =>
      rcases Option.map_eq_some_iff.mp taken with ⟨heap, stepped, rfl⟩
      exact owned.heapEvent admitted stepped
  | scheduler event =>
      by_cases spawns : event = .spawn
      · subst spawns
        rcases Option.bind_eq_some_iff.mp taken with ⟨⟨heap, process, stackAlloc⟩, created, taken⟩
        rcases Option.map_eq_some_iff.mp taken with ⟨scheduler, spawned, rfl⟩
        exact owned.spawn created spawned
      · by_cases reaps : event = .reap
        · subst reaps
          rcases Option.bind_eq_some_iff.mp taken with ⟨scheduler, reaped, taken⟩
          have spares : s.scheduler.SparesCurrent .reap := trivial
          cases dead : (listPop s.scheduler.deadqueue).1 with
          | none =>
              rw [dead] at taken
              cases taken
              have empty : s.scheduler.deadqueue = [] := by
                cases queue : s.scheduler.deadqueue with
                | nil => rfl
                | cons task rest => exact nomatch queue ▸ dead
              refine owned.moves spares reaped nofun fun number => ?_
              rw [(owned.kept.step spares reaped).2 number, Scheduler.HeldAfter, empty]
              exact and_iff_left nofun
          | some task =>
              rw [dead] at taken
              cases task with
              | idle => exact nomatch taken
              | proc number =>
                  cases taken
                  exact owned.reap reaped dead
        · have moved : (s.scheduler.step event).map (fun scheduler =>
              ({ s with scheduler } : Processes)) = some target := by
            cases event with
            | spawn => exact absurd rfl spawns
            | reap => exact absurd rfl reaps
            | _ => exact taken
          rcases Option.map_eq_some_iff.mp moved with ⟨scheduler, stepped, rfl⟩
          refine owned.moves admitted stepped spawns fun number => ?_
          rw [(owned.kept.step admitted stepped).2 number]
          cases event with
          | spawn => exact absurd rfl spawns
          | reap => exact absurd rfl reaps
          | _ => exact Iff.rfl

theorem Owned.reapsLive (owned : s.Owned place) : s.ReapsLive event target := by
  intro _ task popped
  cases queue : s.scheduler.deadqueue with
  | nil => exact nomatch queue ▸ popped
  | cons first rest =>
      rw [queue] at popped
      cases popped
      have dead : task ∈ s.scheduler.deadqueue := by
        rw [queue]
        exact List.mem_cons_self
      cases task with
      | idle => exact absurd dead owned.kept.idle
      | proc number =>
          have held : s.scheduler.Held (.proc number) :=
            .inl (Scheduler.mem_linked.mpr (.inr (.inr dead)))
          exact ⟨number, rfl, owned.process number held, owned.stackAlloc number held,
            fun old => owned.once number old held⟩

end Steps

/-- In every run of processes that are spawned, sleep, are woken, preempted and end, among
any other calls of the allocator, as long as no handler wakes the process that is current and
nobody else frees what is a process's: the idle task frees live blocks only; and at every
moment each process that was spawned either is held and owns live blocks, or was freed once. -/
theorem processes_freed_once {place : Heap.Place} {heap : HeapState} (idleState : ProcState)
    (sound : heap.Sound place) {events : List ProcessesEvent} {s : Processes}
    (admitted : Guarded (step place) Admits (start idleState heap) events)
    (executed : run (step place) (start idleState heap) events = some s) :
    Along (step place) ReapsLive (start idleState heap) events ∧ s.Owned place := by
  have initial := owned_start idleState sound
  constructor
  · exact along_of_guarded (fun _ _ _ owned admitted taken => Owned.step owned admitted taken)
      (fun _ _ _ owned _ _ => owned.reapsLive) initial admitted
  · exact invariant_of_guarded
      (fun _ _ _ owned admitted taken => Owned.step owned admitted taken) initial admitted executed

/-- A process is spawned, runs, ends and is freed. -/
def oneProcess : List ProcessesEvent :=
  [.scheduler .spawn, .scheduler .timer, .scheduler .pendSv, .scheduler .finish,
    .scheduler .raisePendSv, .scheduler .pendSv, .scheduler .reap]

theorem processes_freed_once_example :
    let first := start .waiting (HeapState.start HeapState.linkedPlace fun _ => 0)
    ∃ s, run (step HeapState.linkedPlace) first oneProcess = some s ∧
      Along (step HeapState.linkedPlace) ReapsLive first oneProcess ∧
      s.Owned HeapState.linkedPlace := by
  intro first
  have ends : (run (step HeapState.linkedPlace) first oneProcess).isSome := by decide +kernel
  obtain ⟨s, executed⟩ := Option.isSome_iff_exists.mp ends
  have admitted : Guarded (step HeapState.linkedPlace) Admits first oneProcess :=
    fun _ _ => ⟨trivial, fun _ _ => ⟨trivial, fun _ _ => ⟨trivial, fun _ _ => ⟨trivial,
      fun _ _ => ⟨trivial, fun _ _ => ⟨trivial, fun _ _ => ⟨trivial, trivial⟩⟩⟩⟩⟩⟩⟩
  exact ⟨s, executed, processes_freed_once .waiting (HeapState.sound_start _ _) admitted executed⟩

end Processes

end Lpc17xx.System
