import Lpc17xx.Link.Keyed
import Lpc17xx.Net.Release
import Lpc17xx.Tcp.Api

/-!
# `tcp_connect` on the heap

A thread that calls `tcp_connect` again and again, beside the network tasks, the driver
and everybody else.  A call acquires two blocks of its own, the TCB and its receive
buffer, and two for its SYN, and a wait node for each time it sleeps.  The SYN is freed
by the two transmit tasks, the wait node by whoever wakes the thread.  A call that
returns `NULL` frees the TCB.
-/

namespace Lpc17xx.Net

open Lpc17xx.Arp
open Lpc17xx.Link
open Lpc17xx.Memory
open Lpc17xx.Protocol
open Lpc17xx.Queue
open Lpc17xx.Tcp
open Lpc17xx.Transition

/-- Where the thread is with its call of `tcp_connect`, and the blocks it has acquired
in it. -/
inductive ConnectCall (B : Type) where
  | outside
  | gotTcb (port : UInt16) (ip : UInt32) (newTcb : B)
  | gotRxBuf (t : Tcb) (newTcb rxBuf : B)
  | linked (syn : TcpTx) (newTcb rxBuf : B)
  | waiting (newTcb rxBuf : B)
  deriving DecidableEq

/-- The network code and the thread. -/
structure Connecting (H B : Type) where
  net : State H B
  call : ConnectCall B

/-- What happens beside the thread, or a step of it.  `block` is what the memory of the
receive buffer holds before. -/
inductive ConnectEvent (B : Type) where
  | net (event : NetEvent B)
  | enter (port : UInt16) (ip : UInt32)
  | initRxBuf (block : List UInt8) (size : block.length = tcpBufSz.toNat)
  | thread

/-- The thread as a process. -/
def connector : Task := .thread 0

/-- The process that goes to sleep in an event. -/
def NetEvent.sleeper {B : Type} : NetEvent B → Option Task
  | .wait proc => some proc
  | _ => none

/-- The blocks that the thread has acquired. -/
def ConnectCall.blocks {B : Type} : ConnectCall B → Multiset B
  | .outside => 0
  | .gotTcb _ _ newTcb => {newTcb}
  | .gotRxBuf _ newTcb rxBuf | .linked _ newTcb rxBuf | .waiting newTcb rxBuf =>
      {newTcb} + {rxBuf}

namespace Connecting

variable {H B : Type} [DecidableEq B] (mem : Allocator H B) (address : B → Nat)

/-- `get_mem(sizeof(*new_tcb))`. -/
def enter (s : Connecting H B) (port : UInt16) (ip : UInt32) : Option (Connecting H B) :=
  match s.call with
  | .outside =>
      (s.net.getMem mem 64).map fun (newTcb, net) => { net, call := .gotTcb port ip newTcb }
  | _ => none

/-- `circular_buf_init`, and the fields of the TCB. -/
def initRxBuf (s : Connecting H B) (block : List UInt8)
    (size : block.length = tcpBufSz.toNat) : Option (Connecting H B) :=
  match s.call with
  | .gotTcb port ip newTcb =>
      (s.net.getMem mem tcpBufSz.toNat).map fun (rxBuf, net) =>
        { net
          call := .gotRxBuf (tcpConnectTcb (address newTcb) port ip block size) newTcb rxBuf }
  | _ => none

def setTcbHead (s : State H B) (tcbHead : List Tcb) : State H B :=
  { s with tables := { s.tables with tcbHead } }

/-- The end of `tcp_connect`, once the state is no longer `SYN_SENT`.  The receive
buffer of a call that fails is not freed. -/
def finish (s : Connecting H B) (newTcb rxBuf : B) (state : TcpState) : Connecting H B :=
  if state = .established then
    { net := { s.net with others := newTcb :: rxBuf :: s.net.others }, call := .outside }
  else
    { net := (setTcbHead s.net
        (remove Tcb.addr (address newTcb) s.net.tables.tcbHead)).freeMem mem newTcb
      call := .outside }

/-- The next step of the thread: `list_add`, `tcp_tx`, and then what it does each time
that it looks at the state of its TCB. -/
def thread (s : Connecting H B) : Option (Connecting H B) :=
  match s.call with
  | .gotRxBuf t newTcb rxBuf =>
      some
        { net := setTcbHead s.net (listAdd t s.net.tables.tcbHead)
          call := .linked (tcpConnectSyn t) newTcb rxBuf }
  | .linked syn newTcb rxBuf =>
      (s.net.tcpTx mem syn).map fun net => { net, call := .waiting newTcb rxBuf }
  | .waiting newTcb rxBuf =>
      (lookup Tcb.addr (address newTcb) s.net.tables.tcbHead).bind fun t =>
        if t.state = .synSent then
          (s.net.waitqueueWait mem connector).map fun net => { s with net }
        else some (s.finish mem address newTcb rxBuf t.state)
  | _ => none

/-- One event.  The thread takes no step while it sleeps, and nobody goes to sleep for
it. -/
def step : Step (Connecting H B) (ConnectEvent B)
  | s, .net event =>
      if event.sleeper = some connector then none
      else (s.net.step mem event).map fun net => { s with net }
  | s, .enter port ip => if s.net.Runs connector then s.enter mem port ip else none
  | s, .initRxBuf block size =>
      if s.net.Runs connector then s.initRxBuf mem address block size else none
  | s, .thread => if s.net.Runs connector then s.thread mem address else none

/-- The number of calls that return `NULL` in an event. -/
def failures (s : Connecting H B) : ConnectEvent B → Nat
  | .thread =>
      match s.call with
      | .waiting newTcb _ =>
          match lookup Tcb.addr (address newTcb) s.net.tables.tcbHead with
          | some t => if t.state = .synSent ∨ t.state = .established then 0 else 1
          | none => 0
      | _ => 0
  | _ => 0

/-- The number of pending ARP requests that an event answers. -/
def answered (s : Connecting H B) : ConnectEvent B → Nat
  | .net event => s.net.answered event
  | _ => 0

/-- No ARP packet is lost in the event. -/
def NoArpLoss (s : Connecting H B) : ConnectEvent B → Prop
  | .net event => s.net.NoArpLoss event
  | _ => True

/-- All live blocks. -/
def live (s : Connecting H B) : Multiset B :=
  s.net.live mem

/-- The blocks that something refers to. -/
def owned (s : Connecting H B) : Multiset B :=
  s.net.owned + s.call.blocks

/-- The steps that the thread can take inside a call. -/
inductive ThreadStep (s : Connecting H B) : Connecting H B → Prop
  | links {t : Tcb} {newTcb rxBuf : B} : s.call = .gotRxBuf t newTcb rxBuf →
      ThreadStep s
        { net := setTcbHead s.net (listAdd t s.net.tables.tcbHead)
          call := .linked (tcpConnectSyn t) newTcb rxBuf }
  | transmits {syn : TcpTx} {newTcb rxBuf : B} {net : State H B} :
      s.call = .linked syn newTcb rxBuf → s.net.tcpTx mem syn = some net →
      ThreadStep s { net, call := .waiting newTcb rxBuf }
  | sleeps {newTcb rxBuf : B} {t : Tcb} {net : State H B} : s.call = .waiting newTcb rxBuf →
      lookup Tcb.addr (address newTcb) s.net.tables.tcbHead = some t → t.state = .synSent →
      s.net.waitqueueWait mem connector = some net → ThreadStep s { s with net }
  | returns {newTcb rxBuf : B} {t : Tcb} : s.call = .waiting newTcb rxBuf →
      lookup Tcb.addr (address newTcb) s.net.tables.tcbHead = some t →
      t.state = .established → ThreadStep s (s.finish mem address newTcb rxBuf .established)
  | fails {newTcb rxBuf : B} {t : Tcb} : s.call = .waiting newTcb rxBuf →
      lookup Tcb.addr (address newTcb) s.net.tables.tcbHead = some t →
      t.state ≠ .synSent → t.state ≠ .established →
      ThreadStep s (s.finish mem address newTcb rxBuf t.state)

/-- The blocks that a part of a run leaves to nobody: receive buffers of calls that have
failed, and others.  `entries` are those of the ARP table that it makes. -/
structure Leaves (s after : Connecting H B) (rxBufs lost : Multiset B) (entries : List B) :
    Prop where
  passes : Passes (live mem) owned s after 0 (rxBufs + lost)
  arpTable : after.net.arpTable = entries ++ s.net.arpTable

/-- A part of a run leaves a receive buffer for each call that fails in it, and no other
block exactly if it is quiet. -/
def Accounts (s after : Connecting H B) (failures : Nat) (quiet : Prop) (answers : Nat) : Prop :=
  ∃ rxBufs lost entries, Leaves mem s after rxBufs lost entries ∧ rxBufs.card = failures ∧
    (lost = 0 ↔ quiet) ∧ entries.length = answers

variable {mem} {address} {s middle after : Connecting H B}

theorem threadStep_of_thread (taken : s.thread mem address = some after) :
    ThreadStep mem address s after := by
  unfold thread at taken
  split at taken
  · rename_i got
    cases taken
    exact .links got
  · rename_i linked
    rcases Option.map_eq_some_iff.mp taken with ⟨net, sent, rfl⟩
    exact .transmits linked sent
  · rename_i waiting
    rcases Option.bind_eq_some_iff.mp taken with ⟨t, found, looked⟩
    split at looked
    · rename_i synSent
      rcases Option.map_eq_some_iff.mp looked with ⟨net, slept, rfl⟩
      exact .sleeps waiting found synSent slept
    · rename_i answered
      cases looked
      by_cases established : t.state = .established
      · rw [established]
        exact .returns waiting found established
      · exact .fails waiting found answered established
  · contradiction

/-- What the network code does while the thread keeps its blocks. -/
theorem passes_net {hand hand' : Multiset B} (kept : after.call = s.call)
    (passes : Passes (State.live mem) State.owned s.net after.net hand hand') :
    Passes (live mem) owned s after hand hand' := by
  intro rest holds
  have framed := passes (s.call.blocks + rest) (by
    change s.net.live mem = _
    rw [show s.net.live mem = s.owned + (hand + rest) from holds, owned]
    abel)
  change after.net.live mem = after.net.owned + after.call.blocks + _
  rw [show after.net.live mem = _ from framed, kept]
  abel

/-- What the network code does on behalf of the thread, which has other blocks
afterwards. -/
theorem passes_call {lost : Multiset B}
    (passes : Passes (State.live mem) State.owned s.net after.net s.call.blocks
      (after.call.blocks + lost)) : Passes (live mem) owned s after 0 lost := by
  intro rest holds
  have framed := passes rest (by
    change s.net.live mem = _
    rw [show s.net.live mem = s.owned + (0 + rest) from holds, owned]
    abel)
  change after.net.live mem = after.net.owned + after.call.blocks + _
  rw [show after.net.live mem = _ from framed]
  abel

/-- A step of the thread that leaves nothing to nobody. -/
theorem accounts_call
    (passes : Passes (State.live mem) State.owned s.net after.net s.call.blocks
      after.call.blocks) (arpTable : after.net.arpTable = s.net.arpTable) :
    Accounts mem s after 0 True 0 :=
  ⟨0, 0, [], ⟨passes_call (by rwa [add_zero, add_zero]), arpTable⟩, rfl,
    iff_of_true rfl trivial, rfl⟩

theorem accounts_enter {port : UInt16} {ip : UInt32} (entered : s.enter mem port ip = some after) :
    Accounts mem s after 0 True 0 := by
  unfold enter at entered
  split at entered
  · rename_i outside
    rcases Option.map_eq_some_iff.mp entered with ⟨⟨newTcb, net⟩, got, rfl⟩
    have moves : State.Moves mem s.net net 0 ({newTcb} + 0) := State.moves_getMem got
    apply accounts_call _ moves.arpTable
    rw [outside]
    exact moves.passes
  · contradiction

theorem accounts_initRxBuf {block : List UInt8} {size : block.length = tcpBufSz.toNat}
    (inited : s.initRxBuf mem address block size = some after) :
    Accounts mem s after 0 True 0 := by
  unfold initRxBuf at inited
  split at inited
  · rename_i port ip newTcb called
    rcases Option.map_eq_some_iff.mp inited with ⟨⟨rxBuf, net⟩, got, rfl⟩
    have moves : State.Moves mem s.net net {newTcb} ({newTcb} + {rxBuf}) := by
      rw [add_comm]
      exact State.moves_getMem got
    apply accounts_call _ moves.arpTable
    rw [called]
    exact moves.passes
  · contradiction

/-- The call returns its TCB, and the application has both blocks from then on. -/
theorem accounts_finish_established {newTcb rxBuf : B} (waiting : s.call = .waiting newTcb rxBuf) :
    Accounts mem s (s.finish mem address newTcb rxBuf .established) 0 True 0 := by
  refine accounts_call ?_ rfl
  rw [waiting]
  refine State.passes_moved rfl ?_
  have given : ((newTcb :: rxBuf :: s.net.others : List B) : Multiset B) =
      {newTcb} + ({rxBuf} + (s.net.others : Multiset B)) := by
    rw [← Multiset.cons_coe, ← Multiset.cons_coe, Multiset.singleton_add, Multiset.singleton_add]
  change s.net.inFlight + s.net.waitNodes + s.net.arpTable +
      (newTcb :: rxBuf :: s.net.others : List B) + 0 =
    s.net.inFlight + s.net.waitNodes + s.net.arpTable + s.net.others + ({newTcb} + {rxBuf})
  rw [given]
  abel

/-- The call returns `NULL`.  Its TCB is freed, and its receive buffer is the one block
that nobody refers to any more. -/
theorem accounts_finish_failed {newTcb rxBuf : B} {state : TcpState}
    (waiting : s.call = .waiting newTcb rxBuf) (refused : state ≠ .established) :
    Accounts mem s (s.finish mem address newTcb rxBuf state) 1 True 0 := by
  have same : s.finish mem address newTcb rxBuf state =
      { net := (setTcbHead s.net
          (remove Tcb.addr (address newTcb) s.net.tables.tcbHead)).freeMem mem newTcb
        call := .outside } := if_neg refused
  rw [same]
  refine ⟨{rxBuf}, 0, [], ⟨passes_call ?_, rfl⟩, rfl, iff_of_true rfl trivial, rfl⟩
  rw [waiting]
  have untabled : Passes (State.live mem) State.owned s.net
      (setTcbHead s.net (remove Tcb.addr (address newTcb) s.net.tables.tcbHead))
      ({newTcb} + {rxBuf}) ({newTcb} + {rxBuf}) := State.passes_moved rfl rfl
  have freed := untabled.trans (State.moves_freeMem newTcb).passes
  change Passes _ _ _ _ _ (0 + ({rxBuf} + 0))
  rwa [zero_add, add_zero]

/-- The thread sleeps with its blocks. -/
theorem accounts_sleep {net : State H B}
    (slept : s.net.waitqueueWait mem connector = some net) :
    Accounts mem s { s with net } 0 True 0 := by
  have moves := State.moves_waitqueueWait slept
  refine ⟨0, 0, [], ⟨passes_net rfl ?_, moves.arpTable⟩, rfl, iff_of_true rfl trivial, rfl⟩
  exact moves.passes

/-- A step of the thread leaves a receive buffer exactly if its call fails in it. -/
theorem accounts_thread (taken : s.thread mem address = some after) :
    Accounts mem s after (s.failures address .thread) True 0 := by
  cases threadStep_of_thread taken with
  | links got =>
      have none : s.failures address .thread = 0 := by simp only [failures, got]
      rw [none]
      refine accounts_call ?_ rfl
      rw [got]
      exact State.passes_moved rfl rfl
  | @transmits syn newTcb rxBuf net linked sent =>
      have none : s.failures address .thread = 0 := by simp only [failures, linked]
      have moves : State.Moves mem s.net net ({newTcb} + {rxBuf}) ({newTcb} + {rxBuf}) :=
        State.moves_tcpTx sent
      rw [none]
      apply accounts_call _ moves.arpTable
      rw [linked]
      exact moves.passes
  | sleeps waiting found synSent slept =>
      have none : s.failures address .thread = 0 := by
        simp only [failures, waiting, found, synSent, true_or, if_true]
      rw [none]
      exact accounts_sleep slept
  | returns waiting found established =>
      have none : s.failures address .thread = 0 := by
        simp only [failures, waiting, found, established, or_true, if_true]
      rw [none]
      exact accounts_finish_established waiting
  | fails waiting found answered refused =>
      have one : s.failures address .thread = 1 := by
        simp only [failures, waiting, found, answered, refused, or_self, if_false]
      rw [one]
      exact accounts_finish_failed waiting refused

/-- Every event leaves a receive buffer exactly if a call fails in it, and another block
exactly if an ARP packet is lost in it. -/
theorem accounts_step {event : ConnectEvent B} (taken : step mem address s event = some after) :
    Accounts mem s after (s.failures address event) (s.NoArpLoss event) (s.answered event) := by
  cases event with
  | net event =>
      rcases Option.ite_none_left_eq_some.mp taken with ⟨_, taken⟩
      rcases Option.map_eq_some_iff.mp taken with ⟨net, stepped, rfl⟩
      rcases (State.accounts_step stepped).1 with ⟨lost, entries, takes, losses, count⟩
      refine ⟨0, lost, entries, ⟨passes_net rfl ?_, takes.arpTable⟩, rfl, losses, count⟩
      rw [zero_add]
      exact takes.passes
  | enter port ip =>
      exact accounts_enter (Option.ite_none_right_eq_some.mp taken).2
  | initRxBuf block size =>
      exact accounts_initRxBuf (Option.ite_none_right_eq_some.mp taken).2
  | thread =>
      exact accounts_thread (Option.ite_none_right_eq_some.mp taken).2

/-- Two parts of a run. -/
theorem Accounts.append {failures failures' answers answers' : Nat} {first second : Prop}
    (early : Accounts mem s middle failures first answers)
    (late : Accounts mem middle after failures' second answers') :
    Accounts mem s after (failures + failures') (first ∧ second) (answers + answers') := by
  rcases early with ⟨rxBufs, lost, entries, leaves, failed, losses, count⟩
  rcases late with ⟨rxBufs', lost', entries', leaves', failed', losses', count'⟩
  refine ⟨rxBufs' + rxBufs, lost' + lost, entries' ++ entries, ⟨?_, ?_⟩, ?_, ?_, ?_⟩
  · have framed := leaves'.passes.frame (rxBufs + lost)
    rw [zero_add, add_add_add_comm] at framed
    exact leaves.passes.trans framed
  · rw [leaves'.arpTable, leaves.arpTable, List.append_assoc]
  · rw [Multiset.card_add, failed, failed', add_comm]
  · rw [← Multiset.card_eq_zero, Multiset.card_add, Nat.add_eq_zero_iff, Multiset.card_eq_zero,
      Multiset.card_eq_zero, losses, losses', and_comm]
  · rw [List.length_append, count, count', add_comm]

/-- What a whole run leaves to nobody, by induction on its events. -/
theorem accounts_run {start last : Connecting H B} {events : List (ConnectEvent B)}
    (executed : run (step mem address) start events = some last) :
    Accounts mem start last (tally (step mem address) (failures address) start events)
      (Guarded (step mem address) NoArpLoss start events)
      (tally (step mem address) answered start events) := by
  induction events generalizing start with
  | nil =>
      cases executed
      exact ⟨0, 0, [], ⟨.refl 0, rfl⟩, rfl, iff_of_true rfl trivial, rfl⟩
  | cons event events ih =>
      rcases Option.bind_eq_some_iff.mp executed with ⟨middle, taken, rest⟩
      rcases (accounts_step taken).append (ih rest) with
        ⟨rxBufs, lost, entries, leaves, failed, losses, count⟩
      refine ⟨rxBufs, lost, entries, leaves, ?_, losses.trans ?_, ?_⟩
      · rw [failed, tally_cons taken]
      · constructor
        · rintro ⟨quiet, guarded⟩ target same
          cases taken.symm.trans same
          exact ⟨quiet, guarded⟩
        · intro guarded
          exact guarded middle taken
      · rw [count, tally_cons taken]

end Connecting

end Lpc17xx.Net
