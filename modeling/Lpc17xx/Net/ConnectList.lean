import Lpc17xx.Net.Bystanders
import Lpc17xx.Net.Connect

/-!
# `tcb_head` across calls of `tcp_connect`

Whoever else is on the list stays there.  A call puts its TCB on the list and takes it
off again, unless it returns it.
-/

namespace Lpc17xx.Net

open Lpc17xx.Link
open Lpc17xx.Memory
open Lpc17xx.Protocol
open Lpc17xx.Tcp
open Lpc17xx.Transition

variable {H B : Type}

/-- Where the TCB lies that a call has on the list. -/
def ConnectCall.places (address : B → Nat) : ConnectCall B → List Nat
  | .linked _ newTcb _ | .waiting newTcb _ => [address newTcb]
  | _ => []

namespace Connecting

/-- Where the TCBs on the list lie. -/
def places (s : Connecting H B) : List Nat :=
  s.net.tables.tcbHead.map Tcb.addr

/-- The number of calls that return their TCB in an event. -/
def opens (address : B → Nat) (s : Connecting H B) : ConnectEvent B → Nat
  | .thread =>
      match s.call with
      | .waiting newTcb _ =>
          match lookup Tcb.addr (address newTcb) s.net.tables.tcbHead with
          | some t => if t.state = .established then 1 else 0
          | none => 0
      | _ => 0
  | _ => 0

/-- Nobody else puts a TCB on the list, takes one off it, or frees one that is on it. -/
def HandsOff (address : B → Nat) (s : Connecting H B) : ConnectEvent B → Prop
  | .net (.setOther _ _) => False
  | .net (.freeOther block) => address block ∉ s.places
  | _ => True

variable [DecidableEq B] (mem : Allocator H B) (address : B → Nat)

/-- A TCB that is not on the list yet has its own address. -/
def Initialised (address : B → Nat) : ConnectCall B → Prop
  | .gotRxBuf t newTcb _ => t.addr = address newTcb
  | _ => True

/-- Besides the TCB of the call, the list is `others`, each in a block of somebody else. -/
structure Listed (others : List Nat) (s : Connecting H B) : Prop where
  listed : s.places = s.call.places address ++ others
  housed : ∀ place ∈ others, ∃ block ∈ s.net.others, address block = place
  accounted : s.owned ≤ s.live mem
  initialised : Initialised address s.call

variable {mem} {address} {s after : Connecting H B} {others : List Nat}

theorem accounted_step {event : ConnectEvent B} (accounted : s.owned ≤ s.live mem)
    (taken : step mem address s event = some after) : after.owned ≤ after.live mem := by
  rcases Multiset.le_iff_exists_add.mp accounted with ⟨rest, holds⟩
  rcases accounts_step taken with ⟨rxBufs, lost, entries, leaves, _⟩
  apply Multiset.le_iff_exists_add.mpr
  refine ⟨rxBufs + lost + rest, leaves.passes rest ?_⟩
  rw [zero_add]
  exact holds

/-- The TCB of the call lies apart from all others. -/
theorem Listed.fresh (apart : Function.Injective address) (list : Listed mem address others s)
    {newTcb : B} (acquired : newTcb ∈ s.call.blocks) : address newTcb ∉ others := by
  intro member
  rcases list.housed _ member with ⟨block, inOthers, same⟩
  cases apart same
  have distinct : (s.net.owned + s.call.blocks).Nodup :=
    Multiset.nodup_of_le list.accounted (mem.live s.net.heap).nodup
  have elsewhere := (Multiset.nodup_add.mp distinct).2.2
  have owned : newTcb ∈ s.net.owned :=
    Multiset.mem_add.mpr (.inr (Multiset.mem_coe.mpr inOthers))
  exact Multiset.disjoint_left.mp elsewhere owned acquired

/-- What the network code does on behalf of a call that keeps its place. -/
theorem Listed.spared {call : ConnectCall B} {net : State H B}
    (list : Listed mem address others s) (spares : State.Spares s.net net)
    (kept : call.places address = s.call.places address)
    (initialised : Initialised address call)
    (accounted : (Connecting.mk net call).owned ≤ (Connecting.mk net call).live mem) :
    Listed mem address others { net, call } := by
  refine ⟨?_, ?_, accounted, initialised⟩
  · change net.tables.tcbHead.map Tcb.addr = call.places address ++ others
    rw [spares.tcbHead, kept]
    exact list.listed
  · change ∀ place ∈ others, ∃ block ∈ net.others, address block = place
    rw [spares.others]
    exact list.housed

theorem map_remove (place : Nat) (tcbHead : List Tcb) :
    (remove Tcb.addr place tcbHead).map Tcb.addr =
      (tcbHead.map Tcb.addr).filter (· ≠ place) := by
  rw [remove, List.filter_map]
  rfl

/-- An event of the network code, or of somebody else. -/
theorem Listed.net {event : NetEvent B} {net : State H B}
    (list : Listed mem address others s) (handsOff : s.HandsOff address (.net event))
    (stepped : s.net.step mem event = some net)
    (accounted : (Connecting.mk net s.call).owned ≤ (Connecting.mk net s.call).live mem) :
    Listed mem address others { s with net } := by
  have unset (tcbHead : List Tcb) (udpRxRequests : List UdpListener) :
      event ≠ .setOther tcbHead udpRxRequests := by
    rintro rfl
    exact handsOff
  rcases State.linked_step stepped unset with ⟨listed, kept⟩
  refine ⟨listed.trans list.listed, ?_, accounted, list.initialised⟩
  intro place member
  rcases list.housed place member with ⟨block, inOthers, rfl⟩
  refine ⟨block, kept block inOthers ?_, rfl⟩
  rintro rfl
  apply handsOff
  rw [list.listed]
  exact List.mem_append_right _ member

/-- The call returns its TCB, which stays on the list as one of somebody else's. -/
theorem Listed.finish_established {newTcb rxBuf : B} (list : Listed mem address others s)
    (waiting : s.call = .waiting newTcb rxBuf)
    (accounted : (s.finish mem address newTcb rxBuf .established).owned ≤
      (s.finish mem address newTcb rxBuf .established).live mem) :
    Listed mem address (address newTcb :: others)
      (s.finish mem address newTcb rxBuf .established) := by
  have listed := list.listed
  rw [waiting] at listed
  refine ⟨listed, ?_, accounted, trivial⟩
  intro place member
  rcases List.mem_cons.mp member with rfl | later
  · exact ⟨newTcb, List.mem_cons_self, rfl⟩
  · rcases list.housed place later with ⟨block, inOthers, same⟩
    exact ⟨block, List.mem_cons_of_mem _ (List.mem_cons_of_mem _ inOthers), same⟩

/-- The call returns `NULL`, and takes its TCB off the list. -/
theorem Listed.finish_failed (apart : Function.Injective address) {newTcb rxBuf : B}
    {state : TcpState} (list : Listed mem address others s)
    (waiting : s.call = .waiting newTcb rxBuf) (refused : state ≠ .established)
    (accounted : (s.finish mem address newTcb rxBuf state).owned ≤
      (s.finish mem address newTcb rxBuf state).live mem) :
    Listed mem address others (s.finish mem address newTcb rxBuf state) := by
  have fresh : address newTcb ∉ others := by
    apply list.fresh apart
    rw [waiting]
    exact Multiset.mem_add.mpr (.inl (Multiset.mem_singleton_self newTcb))
  have same : s.finish mem address newTcb rxBuf state =
      { net := (setTcbHead s.net
          (remove Tcb.addr (address newTcb) s.net.tables.tcbHead)).freeMem mem newTcb
        call := .outside } := if_neg refused
  rw [same] at accounted ⊢
  refine ⟨?_, list.housed, accounted, trivial⟩
  have listed := list.listed
  rw [waiting] at listed
  change (remove Tcb.addr (address newTcb) s.net.tables.tcbHead).map Tcb.addr = [] ++ others
  rw [map_remove, show s.net.tables.tcbHead.map Tcb.addr = address newTcb :: others from listed,
    List.filter_cons_of_neg (by simp), List.nil_append, List.filter_eq_self]
  intro place member
  apply decide_eq_true
  rintro rfl
  exact fresh member

/-- A step of the thread puts its TCB in front, or takes it off, or leaves it there for
good. -/
theorem Listed.thread (apart : Function.Injective address) (list : Listed mem address others s)
    (taken : s.thread mem address = some after) (accounted : after.owned ≤ after.live mem) :
    ∃ opened, Listed mem address (opened ++ others) after ∧
      opened.length = s.opens address .thread := by
  cases threadStep_of_thread taken with
  | @links t newTcb rxBuf got =>
      have none : s.opens address .thread = 0 := by simp only [opens, got]
      have listed := list.listed
      have own := list.initialised
      rw [got] at listed own
      refine ⟨[], ⟨?_, list.housed, accounted, trivial⟩, none.symm⟩
      change t.addr :: s.net.tables.tcbHead.map Tcb.addr = address newTcb :: others
      rw [show t.addr = address newTcb from own]
      exact congrArg _ listed
  | transmits linked sent =>
      have none : s.opens address .thread = 0 := by simp only [opens, linked]
      refine ⟨[], list.spared (State.spares_tcpTx sent) ?_ trivial accounted, none.symm⟩
      rw [linked]
      rfl
  | sleeps waiting found synSent slept =>
      have none : s.opens address .thread = 0 := by
        simp only [opens, waiting, found, synSent, reduceCtorEq, if_false]
      exact ⟨[], list.spared (State.spares_waitqueueWait slept) rfl list.initialised accounted,
        none.symm⟩
  | @returns newTcb rxBuf t waiting found established =>
      have one : s.opens address .thread = 1 := by
        simp only [opens, waiting, found, established, if_true]
      exact ⟨[address newTcb], list.finish_established waiting accounted, one.symm⟩
  | fails waiting found answered refused =>
      have none : s.opens address .thread = 0 := by
        simp only [opens, waiting, found, refused, if_false]
      exact ⟨[], list.finish_failed apart waiting refused accounted, none.symm⟩

/-- One event. -/
theorem Listed.step (apart : Function.Injective address) {event : ConnectEvent B}
    (list : Listed mem address others s) (handsOff : s.HandsOff address event)
    (taken : Connecting.step mem address s event = some after) :
    ∃ opened, Listed mem address (opened ++ others) after ∧
      opened.length = s.opens address event := by
  have accounted := accounted_step list.accounted taken
  cases event with
  | net event =>
      rcases Option.ite_none_left_eq_some.mp taken with ⟨_, taken⟩
      rcases Option.map_eq_some_iff.mp taken with ⟨net, stepped, rfl⟩
      exact ⟨[], list.net handsOff stepped accounted, rfl⟩
  | enter port ip =>
      rcases Option.ite_none_right_eq_some.mp taken with ⟨_, entered⟩
      unfold enter at entered
      split at entered
      · rename_i outside
        rcases Option.map_eq_some_iff.mp entered with ⟨⟨newTcb, net⟩, got, rfl⟩
        refine ⟨[], list.spared (State.spares_getMem got) ?_ trivial
          accounted, rfl⟩
        rw [outside]
        rfl
      · contradiction
  | initRxBuf block size =>
      rcases Option.ite_none_right_eq_some.mp taken with ⟨_, inited⟩
      unfold initRxBuf at inited
      split at inited
      · rename_i port ip newTcb called
        rcases Option.map_eq_some_iff.mp inited with ⟨⟨rxBuf, net⟩, got, rfl⟩
        refine ⟨[], list.spared (State.spares_getMem got) ?_ rfl accounted, rfl⟩
        rw [called]
        rfl
      · contradiction
  | thread =>
      exact list.thread apart (Option.ite_none_right_eq_some.mp taken).2 accounted

/-- A whole run, by induction on its events. -/
theorem Listed.run (apart : Function.Injective address) {start last : Connecting H B}
    {events : List (ConnectEvent B)} (list : Listed mem address others start)
    (handsOff : Guarded (Connecting.step mem address) (HandsOff address) start events)
    (executed : Transition.run (Connecting.step mem address) start events = some last) :
    ∃ opened, Listed mem address (opened ++ others) last ∧
      opened.length = tally (Connecting.step mem address) (opens address) start events := by
  induction events generalizing start others with
  | nil =>
      cases executed
      exact ⟨[], list, rfl⟩
  | cons event events ih =>
      rcases Option.bind_eq_some_iff.mp executed with ⟨middle, taken, rest⟩
      rcases handsOff middle taken with ⟨here, later⟩
      rcases list.step apart here taken with ⟨first, listed, count⟩
      rcases ih listed later rest with ⟨second, listed', count'⟩
      refine ⟨second ++ first, ?_, ?_⟩
      · rw [List.append_assoc]
        exact listed'
      · rw [List.length_append, tally_cons taken, count, count', Nat.add_comm]

end Connecting

end Lpc17xx.Net
