import Lpc17xx.Process.Core

/-!
# A queue and the tasks that wait for it

Any number of processes run `wait_for_volatile_condition` on a queue and pop it, as
`rx_task`, `ip4_tx_task` and `ether_tx_task` do, and any number insert into it and call
`waitqueue_wakeup`.  Code that runs with interrupts masked is one step, and any process
that is running may take the next one: the lists of the scheduler are the sets of the
processes in each state.
-/

namespace Lpc17xx.Wait

open Lpc17xx.Link
open Lpc17xx.Process
open Lpc17xx.Transition

universe u

/-- Where a process is: in other code, between the insertion and the wakeup of
`ip4_xmit_packet` or `ether_tx`, before the test of the wait, asleep in it, or behind it
and before the pop. -/
inductive Position where
  | elsewhere
  | inserted
  | testing
  | asleep
  | popping
  deriving DecidableEq, Repr

/-- `waiting_proc_t`.  `block` is the number of the allocation. -/
structure WaitingProc where
  block : Nat
  proc : Nat
  deriving DecidableEq, Repr

/-- The queue, its wait queue, and the processes.  `pkt` is what the last pop of a task has
got.  `allocated` counts the wait nodes, and `freed` are those that have been freed. -/
structure TaskQueue (α : Type u) where
  queue : List α
  waitq : List WaitingProc
  state : Nat → ProcState
  position : Nat → Position
  pkt : Nat → Option α
  allocated : Nat
  freed : List Nat

/-- A task comes to its wait, a process or a handler inserts an item, a process goes on, or
it is put to sleep and woken in other code. -/
inductive QueueEvent (α : Type u) where
  | await (proc : Nat)
  | xmitPacket (proc : Nat) (item : α)
  | packetInject (item : α)
  | goOn (proc : Nat)
  | sleepElsewhere (proc : Nat)
  | wakeElsewhere (proc : Nat)

namespace TaskQueue

variable {α : Type u}

/-- Before the first insertion, with every process in other code. -/
def start (state : Nat → ProcState) : TaskQueue α where
  queue := []
  waitq := []
  state := state
  position := fun _ => .elsewhere
  pkt := fun _ => none
  allocated := 0
  freed := []

def move (s : TaskQueue α) (proc : Nat) (position : Position) : TaskQueue α :=
  { s with position := Function.update s.position proc position }

def setState (s : TaskQueue α) (proc : Nat) (state : ProcState) : TaskQueue α :=
  { s with state := Function.update s.state proc state }

/-- `__waitqueue_wait`, in the test of the wait. -/
def waitqueueWait (s : TaskQueue α) (proc : Nat) : TaskQueue α :=
  let newwait : WaitingProc := { block := s.allocated, proc }
  { (s.setState proc .waiting).move proc .asleep with
    waitq := listAdd newwait s.waitq
    allocated := s.allocated + 1 }

/-- A round of `waitqueue_wakeup`. -/
def wakeupRound (s : TaskQueue α) (waitproc : WaitingProc) : TaskQueue α :=
  { s.setState waitproc.proc .running with
    waitq := listDel waitproc s.waitq
    freed := waitproc.block :: s.freed }

/-- `waitqueue_wakeup`. -/
def waitqueueWakeup (s : TaskQueue α) : TaskQueue α :=
  s.waitq.foldl wakeupRound s

/-- `packet_inject`. -/
def packetInject (s : TaskQueue α) (item : α) : TaskQueue α :=
  waitqueueWakeup { s with queue := listAdd item s.queue }

/-- `ip4_xmit_packet` or `ether_tx`, up to the point where it has enabled interrupts. -/
def xmitPacket (s : TaskQueue α) (proc : Nat) (item : α) : TaskQueue α :=
  { s.move proc .inserted with queue := listAdd item s.queue }

/-- The next step of a process. -/
def goOn (s : TaskQueue α) (proc : Nat) : Option (TaskQueue α) :=
  match s.position proc with
  | .elsewhere => none
  | .inserted => some (s.waitqueueWakeup.move proc .elsewhere)
  | .testing => some (if s.queue.isEmpty then s.waitqueueWait proc else s.move proc .popping)
  | .asleep => some (s.move proc .testing)
  | .popping =>
      let (pkt, queue) := listPop s.queue
      some { s.move proc .elsewhere with queue, pkt := Function.update s.pkt proc pkt }

/-- One event.  A process that is not running takes no step. -/
def step : Step (TaskQueue α) (QueueEvent α)
  | s, .await proc =>
      if s.state proc = .running ∧ s.position proc = .elsewhere then some (s.move proc .testing)
      else none
  | s, .xmitPacket proc item =>
      if s.state proc = .running ∧ s.position proc = .elsewhere then some (s.xmitPacket proc item)
      else none
  | s, .packetInject item => some (s.packetInject item)
  | s, .goOn proc => if s.state proc = .running then s.goOn proc else none
  | s, .sleepElsewhere proc =>
      if s.state proc = .running ∧ s.position proc = .elsewhere then
        some (s.setState proc .waiting)
      else none
  | s, .wakeElsewhere proc =>
      if s.state proc = .waiting ∧ s.position proc = .elsewhere then
        some (s.setState proc .running)
      else none

end TaskQueue

end Lpc17xx.Wait
