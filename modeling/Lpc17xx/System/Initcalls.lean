import Lpc17xx.Link.Family
import Lpc17xx.Link.First
import Lpc17xx.Net.Core
import Lpc17xx.Tcp.Closing

/-!
# What the initcalls register

The handlers of the protocols and the functions of the tick are put on lists by initcalls,
and these run in the order in which the linker has laid out their section.  Each list is
searched or gone through later.  That comes to the same for every order, and `rx_task` with
its search is the loop that looks a handler up in a table.
-/

namespace Lpc17xx.System

open Lpc17xx.Link
open Lpc17xx.Net
open Lpc17xx.Protocol
open Lpc17xx.Tcp

/-- The initcalls. -/
inductive Initcall where
  | tickInit
  | emacInit
  | ethernetInit
  | arpInit
  | ipv4Init
  | udpInit
  | tcpInit
  deriving DecidableEq, Repr

/-- The `.initcalls` section, in the order of the object files in the Makefile. -/
def initcalls : List Initcall :=
  [.arpInit, .ethernetInit, .emacInit, .tickInit, .ipv4Init, .udpInit, .tcpInit]

/-- `protocol_head` and `tick_work`. -/
inductive Registry where
  | protocolHead
  | tickWork
  deriving DecidableEq, Repr

/-- The list nodes that start-up links: the two heads, `next_protocol` in each `protocol_t`
and `tick_work_l` in each `tick_work_q`. -/
inductive StartNode where
  | head (registry : Registry)
  | ethernetProtocol
  | arpProtocol
  | ipv4Protocol
  | udpProtocol
  | tcpProtocol
  | arpTickWork
  | tcpTickWork
  deriving DecidableEq, Repr

namespace StartNode

/-- `type` of the `protocol_t` around a node. -/
def type : StartNode → Option ProtocolType
  | ethernetProtocol => some .ethernet
  | arpProtocol => some .arp
  | ipv4Protocol => some .ipv4
  | udpProtocol => some .udp
  | tcpProtocol => some .tcp
  | _ => none

/-- The call of `rx_pkt` of the `protocol_t` around a node. -/
def rxPkt : StartNode → Rx Unit
  | ethernetProtocol => ethernetRxPkt
  | arpProtocol => arpRxPacket
  | ipv4Protocol => ipv4RxPacket
  | udpProtocol => udpRxPacket
  | tcpProtocol => tcpRxPacket
  | _ => pure ()

/-- The call of `tick_fn` of the `tick_work_q` around a node.  The blocks that `tcp_tick`
frees are left out. -/
def tickFn {H B : Type} (s : State H B) : StartNode → State H B
  | arpTickWork => s.arpTick
  | tcpTickWork => { s with tables := { s.tables with tcbHead := tcpTick s.tables.tcbHead } }
  | _ => s

/-- The initcall that puts the node on a list. -/
def initcall : StartNode → Option Initcall
  | ethernetProtocol => some .ethernetInit
  | arpProtocol => some .arpInit
  | ipv4Protocol => some .ipv4Init
  | udpProtocol => some .udpInit
  | tcpProtocol => some .tcpInit
  | arpTickWork => some .arpInit
  | tcpTickWork => some .tcpInit
  | head _ => none

end StartNode

/-- `protocol_register`. -/
def protocolRegister (protocol : StartNode) (links : Links StartNode) : Links StartNode :=
  links.listAdd protocol (.head .protocolHead)

/-- `tick_add_work_fn`. -/
def tickAddWorkFn (newWork : StartNode) (links : Links StartNode) : Links StartNode :=
  links.listAdd newWork (.head .tickWork)

/-- What an initcall does to the lists. -/
def Initcall.call (links : Links StartNode) : Initcall → Links StartNode
  | tickInit => links
  | emacInit => links
  | ethernetInit => protocolRegister .ethernetProtocol links
  | arpInit => protocolRegister .arpProtocol (tickAddWorkFn .arpTickWork links)
  | ipv4Init => protocolRegister .ipv4Protocol links
  | udpInit => protocolRegister .udpProtocol links
  | tcpInit => protocolRegister .tcpProtocol (tickAddWorkFn .tcpTickWork links)

/-- `call_initcalls`. -/
def callInitcalls (links : Links StartNode) (calls : List Initcall) : Links StartNode :=
  calls.foldl Initcall.call links

/-- The links before start-up: the heads are initialised, the nodes hold anything. -/
def startLinks (stale : Links StartNode) : Links StartNode where
  next
    | .head registry => .head registry
    | node => stale.next node
  prev
    | .head registry => .head registry
    | node => stale.prev node

/-- `resolve_pkt_protocol`. -/
def resolvePktProtocol (links : Links StartNode) (rounds : Nat) (handler : ProtocolType) :
    Option (Option StartNode) :=
  links.search (.head .protocolHead) (fun node => node.type = some handler) rounds

/-- One round of the inner loop of `rx_task`, up to its last test. -/
def handleResolved (links : Links StartNode) (rounds : Nat) (s : Stack) : Option Stack :=
  (resolvePktProtocol links rounds s.pkt.handler).map fun
    | none => { s with pkt := { s.pkt with handler := .drop } }
    | some proto => (proto.rxPkt.run s).2

/-- The inner loop of `rx_task`. -/
def rxLoopResolved (links : Links StartNode) (rounds : Nat) : Nat → Stack → Option (List Stack)
  | 0, _ => some []
  | fuel + 1, s =>
      (handleResolved links rounds s).bind fun after =>
        if after.pkt.handler = .drop ∨ after.stopped then some [after]
        else (rxLoopResolved links rounds fuel after).map (after :: ·)

/-- `irq_timer0`. -/
def irqTimer0 {H B : Type} (links : Links StartNode) (rounds : Nat) (s : State H B) :
    Option (State H B) :=
  (links.listForEach (.head .tickWork) rounds).map (List.foldl StartNode.tickFn s)

/-! ## What is registered -/

/-- The nodes that an initcall puts on a list. -/
def Initcall.registers : Registry → Initcall → Option StartNode
  | .protocolHead, ethernetInit => some .ethernetProtocol
  | .protocolHead, arpInit => some .arpProtocol
  | .protocolHead, ipv4Init => some .ipv4Protocol
  | .protocolHead, udpInit => some .udpProtocol
  | .protocolHead, tcpInit => some .tcpProtocol
  | .tickWork, arpInit => some .arpTickWork
  | .tickWork, tcpInit => some .tcpTickWork
  | _, _ => none

/-- The list behind a head when some initcalls have run. -/
def registered (calls : List Initcall) (registry : Registry) : List StartNode :=
  (calls.filterMap (Initcall.registers registry)).reverse

section Registered

variable {links stale : Links StartNode} {calls order : List Initcall} {call : Initcall}
  {registry : Registry} {node : StartNode}

theorem mem_registered :
    node ∈ registered calls registry ↔ ∃ call ∈ calls, call.registers registry = some node := by
  rw [registered, List.mem_reverse, List.mem_filterMap]

theorem initcall_of_registers (registers : call.registers registry = some node) :
    node.initcall = some call := by
  cases registry <;> cases call <;> cases registers <;> rfl

/-- What an initcall registers is on no list before. -/
theorem fresh_of_initcall (notCalled : call ∉ calls) (own : node.initcall = some call)
    (registry : Registry) :
    node ∉ StartNode.head registry :: registered calls registry := by
  rw [List.mem_cons, mem_registered]
  rintro (rfl | ⟨other, called, registers⟩)
  · contradiction
  · have same := own.symm.trans (initcall_of_registers registers)
    exact notCalled (Option.some.inj same ▸ called)

theorem registered_snoc (calls : List Initcall) (call : Initcall) (registry : Registry) :
    registered (calls ++ [call]) registry =
      (call.registers registry).toList ++ registered calls registry := by
  rw [registered, registered, List.filterMap_append, List.reverse_append]
  cases registers : call.registers registry <;> simp [registers]

theorem nodup_registered (nodup : calls.Nodup) : (registered calls registry).Nodup := by
  rw [registered, List.nodup_reverse]
  refine nodup.filterMap fun call call' node registers registers' => ?_
  have own := initcall_of_registers (Option.mem_def.mp registers)
  have own' := initcall_of_registers (Option.mem_def.mp registers')
  exact Option.some.inj (own.symm.trans own')

/-- The lists in memory are those that the initcalls so far have made. -/
abbrev Holds (links : Links StartNode) (calls : List Initcall) : Prop :=
  links.Family StartNode.head (registered calls)

theorem holds_startLinks (stale : Links StartNode) : Holds (startLinks stale) [] where
  ring _ := Links.ring_nil rfl rfl
  apart registry registry' other := by
    intro node member
    rw [List.mem_singleton.mp member, registered, List.filterMap_nil, List.reverse_nil,
      List.mem_singleton]
    exact fun same => other (StartNode.head.inj same)

/-- An initcall that registers one node. -/
theorem Holds.register (holds : Holds links calls) (notCalled : call ∉ calls)
    (own : node.initcall = some call)
    (registers : ∀ other, call.registers other = if other = registry then some node else none) :
    Holds (links.listAdd node (.head registry)) (calls ++ [call]) := by
  have added := holds.listAdd registry (fresh_of_initcall notCalled own)
  have same : Function.update (registered calls) registry
      (listAdd node (registered calls registry)) = registered (calls ++ [call]) := by
    funext other
    rw [registered_snoc, registers]
    by_cases here : other = registry
    · subst here
      simp [listAdd]
    · simp [here]
  rw [Holds, ← same]
  exact added

/-- An initcall that registers a function of the tick and a protocol. -/
theorem Holds.registerBoth {work protocol : StartNode} (holds : Holds links calls)
    (notCalled : call ∉ calls) (ownWork : work.initcall = some call)
    (own : protocol.initcall = some call) (different : protocol ≠ work)
    (registersWork : call.registers .tickWork = some work)
    (registers : call.registers .protocolHead = some protocol) :
    Holds (protocolRegister protocol (tickAddWorkFn work links)) (calls ++ [call]) := by
  have worked := holds.listAdd .tickWork (fresh_of_initcall notCalled ownWork)
  have fresh (other : Registry) : protocol ∉ StartNode.head other ::
      Function.update (registered calls) .tickWork
        (listAdd work (registered calls .tickWork)) other := by
    have before := fresh_of_initcall notCalled own other
    cases other with
    | protocolHead => exact before
    | tickWork =>
        rw [Function.update_self, listAdd, List.mem_cons, List.mem_cons]
        rintro (isHead | isWork | listed)
        · exact before (isHead ▸ List.mem_cons_self)
        · exact different isWork
        · exact before (List.mem_cons_of_mem _ listed)
  have added := worked.listAdd .protocolHead fresh
  have same : Function.update (Function.update (registered calls) .tickWork
      (listAdd work (registered calls .tickWork))) .protocolHead
        (listAdd protocol (registered calls .protocolHead)) = registered (calls ++ [call]) := by
    funext other
    rw [registered_snoc]
    cases other with
    | protocolHead => simp [registers, listAdd]
    | tickWork => simp [registersWork, listAdd]
  rw [Holds, ← same]
  exact added

/-- Each initcall puts what it registers in front, and leaves the rest of both lists. -/
theorem Holds.step (holds : Holds links calls) (notCalled : call ∉ calls) :
    Holds (call.call links) (calls ++ [call]) := by
  have nothing (none : ∀ registry, call.registers registry = none) :
      Holds links (calls ++ [call]) := by
    have same : registered (calls ++ [call]) = registered calls := by
      funext registry
      rw [registered_snoc, none registry]
      rfl
    rw [Holds, same]
    exact holds
  cases call with
  | tickInit => exact nothing (by rintro (_ | _) <;> rfl)
  | emacInit => exact nothing (by rintro (_ | _) <;> rfl)
  | ethernetInit => exact holds.register notCalled rfl (by rintro (_ | _) <;> rfl)
  | ipv4Init => exact holds.register notCalled rfl (by rintro (_ | _) <;> rfl)
  | udpInit => exact holds.register notCalled rfl (by rintro (_ | _) <;> rfl)
  | arpInit => exact holds.registerBoth notCalled rfl rfl nofun rfl rfl
  | tcpInit => exact holds.registerBoth notCalled rfl rfl nofun rfl rfl

/-- Whatever initcalls have run, in whatever order. -/
theorem holds_callInitcalls (stale : Links StartNode) (nodup : calls.Nodup) :
    Holds (callInitcalls (startLinks stale) calls) calls := by
  induction calls using List.reverseRecOn with
  | nil => exact holds_startLinks stale
  | append_singleton calls call ih =>
      rcases List.nodup_append.mp nodup with ⟨before, _, apart⟩
      have notCalled : call ∉ calls := fun member =>
        apart call member call List.mem_cons_self rfl
      rw [callInitcalls, List.foldl_append]
      exact (ih before).step notCalled

/-! ## What the lists are used for -/

/-- The node that registers the handler of a packet. -/
def protocolNode : ProtocolType → Option StartNode
  | .ethernet => some .ethernetProtocol
  | .ipv4 => some .ipv4Protocol
  | .udp => some .udpProtocol
  | .tcp => some .tcpProtocol
  | .arp => some .arpProtocol
  | .drop => none

theorem protocolNode_of_type {type : ProtocolType} (typed : node.type = some type) :
    protocolNode type = some node := by
  cases node <;> cases typed <;> rfl

theorem type_of_protocolNode {type : ProtocolType} (found : protocolNode type = some node) :
    node.type = some type ∧ ∃ call ∈ initcalls, call.registers .protocolHead = some node := by
  cases type with
  | drop => contradiction
  | _ =>
      cases found
      decide

/-- The search finds what the table says, whatever the order of the list. -/
theorem resolvePktProtocol_eq {rounds : Nat} (holds : Holds links order)
    (all : order.Perm initcalls) (enough : 5 ≤ rounds) (handler : ProtocolType) :
    resolvePktProtocol links rounds handler = some (protocolNode handler) := by
  have few : (registered order .protocolHead).length ≤ rounds := by
    have same : (registered order .protocolHead).length = 5 := by
      rw [registered, List.length_reverse, (all.filterMap _).length_eq]
      rfl
    omega
  rw [resolvePktProtocol, (holds.ring .protocolHead).search few]
  congr 1
  cases found : protocolNode handler with
  | none =>
      refine List.find?_eq_none.mpr fun node _ typed => ?_
      rw [protocolNode_of_type (of_decide_eq_true typed)] at found
      contradiction
  | some node =>
      rcases type_of_protocolNode found with ⟨typed, call, called, registers⟩
      have member : node ∈ registered order .protocolHead :=
        mem_registered.mpr ⟨call, all.mem_iff.mpr called, registers⟩
      have first : First StartNode.type (registered order .protocolHead) node := by
        refine first_of_unique member fun other _ same => ?_
        rw [typed] at same
        exact Option.some.inj ((protocolNode_of_type same).symm.trans found)
      rwa [First, typed] at first

theorem handleResolved_eq {rounds : Nat} (holds : Holds links order)
    (all : order.Perm initcalls) (enough : 5 ≤ rounds) (s : Stack) :
    handleResolved links rounds s = some s.handle := by
  rw [handleResolved, resolvePktProtocol_eq holds all enough, Stack.handle]
  cases s.pkt.handler <;> rfl

theorem rxLoopResolved_eq {rounds : Nat} (holds : Holds links order)
    (all : order.Perm initcalls) (enough : 5 ≤ rounds) (fuel : Nat) (s : Stack) :
    rxLoopResolved links rounds fuel s = some (rxLoop fuel s) := by
  induction fuel generalizing s with
  | zero => rfl
  | succ fuel ih =>
      rw [rxLoopResolved, handleResolved_eq holds all enough, Option.bind_some, rxLoop, ih]
      by_cases last : s.handle.pkt.handler = .drop ∨ s.handle.stopped = true
      · simp [last]
      · simp [last]

/-! ## The tick -/

variable {H B : Type}

/-- A tick when some initcalls have run: the functions that these have registered. -/
def ticked (calls : List Initcall) (s : State H B) : State H B :=
  let s := if .arpInit ∈ calls then StartNode.tickFn s .arpTickWork else s
  if .tcpInit ∈ calls then StartNode.tickFn s .tcpTickWork else s

/-- The functions of the tick work on tables of their own. -/
instance : RightCommutative (@StartNode.tickFn H B) where
  right_comm s node node' := by
    cases node <;> cases node' <;> rfl

theorem mem_registered_tickWork :
    node ∈ registered calls .tickWork ↔
      node = .arpTickWork ∧ .arpInit ∈ calls ∨ node = .tcpTickWork ∧ .tcpInit ∈ calls := by
  rw [mem_registered]
  constructor
  · rintro ⟨call, called, registers⟩
    cases call <;> cases registers
    · exact .inl ⟨rfl, called⟩
    · exact .inr ⟨rfl, called⟩
  · rintro (⟨rfl, called⟩ | ⟨rfl, called⟩)
    · exact ⟨_, called, rfl⟩
    · exact ⟨_, called, rfl⟩

/-- The order on the list makes no difference. -/
theorem foldl_registered (nodup : calls.Nodup) (s : State H B) :
    (registered calls .tickWork).foldl StartNode.tickFn s = ticked calls s := by
  have perm : (registered calls .tickWork).Perm
      ([.arpTickWork, .tcpTickWork].filter fun node => node ∈ registered calls .tickWork) := by
    refine (List.perm_ext_iff_of_nodup (nodup_registered nodup)
      (List.Nodup.filter _ (by decide))).mpr fun node => ?_
    rw [List.mem_filter, decide_eq_true_iff, iff_and_self, mem_registered_tickWork]
    rintro (⟨rfl, _⟩ | ⟨rfl, _⟩) <;> decide
  rw [perm.foldl_eq s, ticked]
  by_cases arp : .arpInit ∈ calls <;> by_cases tcp : .tcpInit ∈ calls <;>
    simp [mem_registered_tickWork, arp, tcp]

theorem irqTimer0_eq {rounds : Nat} (holds : Holds links calls) (nodup : calls.Nodup)
    (enough : 2 ≤ rounds) (s : State H B) : irqTimer0 links rounds s = some (ticked calls s) := by
  have few : (registered calls .tickWork).length ≤ rounds := by
    have most : (registered calls .tickWork).length ≤
        [StartNode.arpTickWork, .tcpTickWork].length := by
      refine (nodup_registered nodup).subperm (fun node member => ?_) |>.length_le
      rcases mem_registered_tickWork.mp member with ⟨rfl, _⟩ | ⟨rfl, _⟩ <;> decide
    exact most.trans enough
  rw [irqTimer0, (holds.ring .tickWork).listForEach few, Option.map_some,
    foldl_registered nodup]

/-- In whatever order the linker has laid out the initcalls: with the list that they have
made, `rx_task` takes every packet through the handlers that the table of `Protocol.rxPkt`
has; and a tick that comes between two initcalls or after the last runs the functions
registered so far, each once, to the same effect. -/
theorem initcalls_in_any_order (all : order.Perm initcalls) (stale : Links StartNode)
    {rounds : Nat} (enough : 5 ≤ rounds) :
    (∀ fuel s, rxLoopResolved (callInitcalls (startLinks stale) order) rounds fuel s =
      some (rxLoop fuel s)) ∧
    ∀ called, called <+: order → ∀ s : State H B,
      irqTimer0 (callInitcalls (startLinks stale) called) rounds s = some (ticked called s) := by
  have nodup : order.Nodup := all.nodup_iff.mpr (by decide)
  constructor
  · exact rxLoopResolved_eq (holds_callInitcalls stale nodup) all enough
  · intro called before
    have apart : called.Nodup := before.sublist.nodup nodup
    exact irqTimer0_eq (holds_callInitcalls stale apart) apart (by omega)

/-- The section the other way round, and a tick that comes when two initcalls have run. -/
theorem initcalls_in_any_order_example :
    (∀ fuel s, rxLoopResolved (callInitcalls (startLinks ⟨id, id⟩) initcalls.reverse) 5 fuel s =
      some (rxLoop fuel s)) ∧
    ∀ s : State Unit Unit,
      irqTimer0 (callInitcalls (startLinks ⟨id, id⟩) [.tcpInit, .udpInit]) 5 s =
        some (StartNode.tickFn s .tcpTickWork) := by
  rcases @initcalls_in_any_order _ Unit Unit (List.reverse_perm initcalls) ⟨id, id⟩ _
    (Nat.le_refl 5) with ⟨handled, ticks⟩
  exact ⟨handled, ticks [.tcpInit, .udpInit] ⟨_, rfl⟩⟩

end Registered

end Lpc17xx.System
