import Lpc17xx.Packets.Layout

/-!
# What holds while packets are received

The calls made so far are a history of packets; memory and `rx_task` are where this history
has left them.  One step at a time, it stays so while handlers swap nothing but their frame.
-/

namespace Lpc17xx.Packets

open Lpc17xx.Link
open Lpc17xx.Memory
open Lpc17xx.Protocol
open Lpc17xx.Transition

/-- What the packet in hand still owns. -/
def Hand.ranges : Hand → List (Nat × Nat)
  | .nothing => []
  | .whole parcel _ => parcel.ranges
  | .frameFreed parcel _ => [(parcel.block, 36)]

/-- What all packets own. -/
def Custody.ranges (c : Custody) : List (Nat × Nat) :=
  c.hand.ranges ++ c.queued.flatMap Parcel.ranges

/-- The place of `rx_task` and its `pkt`, for what it has in hand. -/
inductive Holding (memory : Bytes) : RxPoint → Nat → Hand → Prop
  | popping (pkt : Nat) : Holding memory .popping pkt .nothing
  | dispatching (parcel : Parcel) (handlers : List ProtocolType)
      (recorded : Recorded memory parcel)
      (expected : pktHandler memory parcel.block ≠ .drop →
        Expects parcel.type handlers (pktHandler memory parcel.block))
      (due : pktHandler memory parcel.block = .drop → handlers = [] → parcel.type = .drop) :
      Holding memory .dispatching parcel.block (.whole parcel handlers)
  | handling (parcel : Parcel) (handlers : List ProtocolType)
      (recorded : Recorded memory parcel) :
      Holding memory .handling parcel.block
        (.whole parcel (pktHandler memory parcel.block :: handlers))
  | freeingFrame (parcel : Parcel) (handlers : List ProtocolType)
      (recorded : Recorded memory parcel) (due : handlers = [] → parcel.type = .drop) :
      Holding memory .freeingFrame parcel.block (.whole parcel handlers)
  | freeingPacket (parcel : Parcel) (handlers : List ProtocolType) :
      Holding memory .freeingPacket parcel.block (.frameFreed parcel handlers)

/-- The steps of `rx_task` that are still to come for the packet in hand, at most, when so many
handlers are left. -/
def RxPoint.work : RxPoint → Nat → Nat
  | .popping, _ => 0
  | .dispatching, left => 2 + 2 * left
  | .handling, left => 1 + 2 * left
  | .freeingFrame, _ => 2
  | .freeingPacket, _ => 1

namespace RxState

/-- The invariant. -/
structure Holds (queue : RxQueue) (s : RxState) (c : Custody) : Prop where
  lived : run Custody.follow .empty s.log = some c
  waiting : Waiting queue s.memory c.queued
  holding : Holding s.memory s.point s.pkt c.hand
  owned : s.owned.Perm c.ranges
  layout : Layout queue c.ranges

/-- The steps of `rx_task` that are still to come, at most. -/
def work (s : RxState) (c : Custody) : Nat :=
  9 * c.queued.length + s.point.work (pktHandler s.memory s.pkt).handlersLeft

end RxState

open RxState (Holds)

variable {queue : RxQueue} {memory memory' : Bytes} {tables : Tables} {point : RxPoint}
  {pkt : Nat} {owned : List (Nat × Nat)} {log : List PacketCall} {parcel : Parcel}
  {queued : List Parcel} {hand : Hand} {consumed : List (Parcel × List ProtocolType)}
  {handlers : List ProtocolType}

section Memory

/-- Where nothing of the packet in hand changes, it is still in hand. -/
theorem Holding.congr (holding : Holding memory point pkt hand)
    (same : ∀ parcel handlers, hand = .whole parcel handlers →
      Same memory memory' (parcel.block, 28)) : Holding memory' point pkt hand := by
  cases holding with
  | popping => exact .popping pkt
  | dispatching parcel handlers recorded expected due =>
      have fields := same parcel handlers rfl
      have handler := pktHandler_congr fields
      refine .dispatching parcel handlers (recorded.congr fields) ?_ ?_
      · rw [handler]
        exact expected
      · rw [handler]
        exact due
  | handling parcel handlers recorded =>
      have fields := same parcel _ rfl
      have handled := Holding.handling parcel handlers (recorded.congr fields)
      rw [pktHandler_congr fields] at handled
      exact handled
  | freeingFrame parcel handlers recorded due =>
      exact .freeingFrame parcel handlers (recorded.congr (same parcel handlers rfl)) due
  | freeingPacket parcel handlers => exact .freeingPacket parcel handlers

/-- Writes outside of what is reserved, and new tables, change nothing here. -/
theorem RxState.Holds.of_outside
    (holds : Holds queue ⟨memory, tables, point, pkt, owned, log⟩ ⟨queued, hand, consumed⟩)
    (tables' : Tables)
    (same : ∀ range ∈ (queue.pktRxQ, 8) :: owned, Same memory memory' range) :
    Holds queue ⟨memory', tables', point, pkt, owned, log⟩ ⟨queued, hand, consumed⟩ where
  lived := holds.lived
  waiting := by
    refine holds.waiting.congr fun range member => same range ?_
    rcases List.mem_cons.mp member with head | inside
    · exact List.mem_cons.mpr (.inl head)
    · exact List.mem_cons_of_mem _ (holds.owned.mem_iff.mpr (List.mem_append_right _ inside))
  holding := by
    refine holds.holding.congr fun parcel handlers whole => ?_
    cases whole
    have member : (parcel.block, 36) ∈ owned :=
      holds.owned.mem_iff.mpr
        (List.mem_append_left _ (List.mem_cons_of_mem _ List.mem_cons_self))
    exact (same _ (List.mem_cons_of_mem _ member)).part (by decide : 0 + 28 ≤ 36)
  owned := holds.owned
  layout := holds.layout

/-- What queued packets and the queue own is apart from what the packet in hand owns. -/
theorem Layout.apart_hand (layout : Layout queue (hand.ranges ++ queued.flatMap Parcel.ranges)) :
    ∀ range ∈ (queue.pktRxQ, 8) :: queued.flatMap Parcel.ranges, ∀ own ∈ hand.ranges,
      Apart range own := by
  rcases List.pairwise_cons.mp layout.apart with ⟨head, others⟩
  rcases List.pairwise_append.mp others with ⟨_, _, across⟩
  refine List.forall_mem_cons.mpr ⟨fun own member => ?_, fun range inside own member => ?_⟩
  · exact head own (List.mem_append_left _ member)
  · exact (across own member range inside).symm

/-- Writes to the packet in hand leave those in the queue alone. -/
theorem Waiting.of_hand (waiting : Waiting queue memory queued)
    (layout : Layout queue (hand.ranges ++ queued.flatMap Parcel.ranges))
    (kept : ∀ address, Outside hand.ranges address → memory' address = memory address) :
    Waiting queue memory' queued :=
  waiting.congr fun range member => same_of_outside kept (layout.apart_hand range member)

end Memory

section Inject

/-- New blocks are apart from all others. -/
theorem layout_of_fresh {s : RxState} (fresh : s.Fresh queue parcel)
    (layout : Layout queue s.owned) : Layout queue (parcel.ranges ++ s.owned) where
  apart := (List.perm_middle.pairwise_iff Apart.symm).mp fresh.2
  spans := by
    intro range member
    rcases List.mem_append.mp member with new | old
    · exact fresh.1 range new
    · exact layout.spans range old

/-- The driver's writes before `list_add` stay in the new blocks. -/
theorem created_of_outside {bytes : List UInt8} (length : bytes.length = parcel.len)
    {address : Nat} (outside : Outside parcel.ranges address) :
    storeHandler (packetCreate (storeBytes memory parcel.frame bytes) parcel.block parcel.frame
      (.ofNat parcel.len)) parcel.block parcel.type address = memory address := by
  rcases List.forall_mem_cons.mp outside with ⟨frame, rest⟩
  have block := rest _ List.mem_cons_self
  rw [storeHandler_of_ne (by omega), packetCreate_of_outside (by omega),
    storeBytes_of_outside (by omega)]

theorem RxState.Holds.inject {bytes : List UInt8}
    (holds : Holds queue ⟨memory, tables, point, pkt, owned, log⟩ ⟨queued, hand, consumed⟩)
    (fresh : RxState.Fresh queue ⟨memory, tables, point, pkt, owned, log⟩ parcel)
    (length : bytes.length = parcel.len) :
    Holds queue
      ⟨packetInject (packetCreate (storeBytes memory parcel.frame bytes) parcel.block parcel.frame
        (.ofNat parcel.len)) parcel.block queue parcel.type, tables, point, pkt,
        parcel.ranges ++ owned, log ++ [.inject parcel]⟩
      ⟨parcel :: queued, hand, consumed⟩ := by
  let stored := storeHandler (packetCreate (storeBytes memory parcel.frame bytes) parcel.block
    parcel.frame (.ofNat parcel.len)) parcel.block parcel.type
  have kept : ∀ address, Outside parcel.ranges address → stored address = memory address :=
    fun address outside => created_of_outside length outside
  have widened : Layout queue (parcel.ranges ++ owned) :=
    layout_of_fresh fresh (holds.layout.perm holds.owned.symm)
  have layout : Layout queue (parcel.ranges ++ Custody.ranges ⟨queued, hand, consumed⟩) :=
    widened.perm (holds.owned.append_left _)
  have prepared : Holds queue ⟨stored, tables, point, pkt, owned, log⟩ ⟨queued, hand, consumed⟩ :=
    holds.of_outside tables fun range member => by
      refine same_of_outside kept fun own inside => ?_
      rcases List.pairwise_cons.mp widened.apart with ⟨head, others⟩
      rcases List.pairwise_append.mp others with ⟨_, _, across⟩
      rcases List.mem_cons.mp member with rfl | old
      · exact head own (List.mem_append_left _ inside)
      · exact (across own inside range old).symm
  have owners : ∀ each ∈ queued,
      (each.block, 36) ∈ Custody.ranges ⟨queued, hand, consumed⟩ :=
    fun each member => List.mem_append_right _ (block_mem_flatMap member)
  rcases prepared.waiting.inject layout owners with ⟨ring, fields⟩
  have own := fields parcel (List.mem_cons_of_mem _ List.mem_cons_self)
  constructor
  · exact (Follows.inject _ parcel).run holds.lived
  · refine ⟨ring, List.forall_mem_cons.mpr ⟨⟨?_, ?_⟩, fun each member => ?_⟩⟩
    · have frame := fresh.1 _ List.mem_cons_self
      have block := fresh.1 _ (List.mem_cons_of_mem _ List.mem_cons_self)
      unfold Spans at frame block
      exact ((recorded_packetCreate (by omega) (by omega)).storeHandler parcel.type).congr own
    · exact (pktHandler_congr own).trans (pktHandler_storeHandler parcel.type)
    · have same := fields each (List.mem_append_right _ (owners each member))
      rcases prepared.waiting.recorded each member with ⟨recorded, type⟩
      exact ⟨recorded.congr same, (pktHandler_congr same).trans type⟩
  · refine prepared.holding.congr fun held handlers whole => fields held ?_
    cases whole
    exact List.mem_append_right _
      (List.mem_append_left _ (List.mem_cons_of_mem _ List.mem_cons_self))
  · exact (holds.owned.append_left _).trans (List.perm_append_comm_assoc _ _ _)
  · exact layout.perm (List.perm_append_comm_assoc _ _ _)

end Inject

section Task

theorem RxState.Holds.pop
    (holds : Holds queue ⟨memory, tables, .popping, pkt, owned, log⟩
      ⟨parcel :: queued, .nothing, consumed⟩) :
    Holds queue
      ⟨Stored.listDel memory parcel.node, tables, .dispatching, parcel.block, owned,
        log ++ [.pop parcel.block]⟩
      ⟨queued, .whole parcel [], consumed⟩ := by
  have owners : ∀ each ∈ parcel :: queued,
      (each.block, 36) ∈ (parcel :: queued).flatMap Parcel.ranges :=
    fun each member => block_mem_flatMap member
  rcases holds.waiting.pop holds.layout owners with ⟨ring, fields⟩
  rcases List.forall_mem_cons.mp holds.waiting.recorded with ⟨⟨recorded, type⟩, others⟩
  have own := fields parcel (owners parcel List.mem_cons_self)
  have handler := (pktHandler_congr own).trans type
  constructor
  · exact (Follows.pop parcel queued consumed).run holds.lived
  · refine ⟨ring, fun each member => ?_⟩
    have same := fields each (owners each (List.mem_cons_of_mem parcel member))
    rcases others each member with ⟨recorded, type⟩
    exact ⟨recorded.congr same, (pktHandler_congr same).trans type⟩
  · refine .dispatching parcel [] (recorded.congr own) (fun goes => ⟨handler, goes⟩) ?_
    intro dropped _
    exact handler.symm.trans dropped
  · exact holds.owned
  · exact holds.layout

/-- No handler is found. -/
theorem RxState.Holds.dismiss
    (holds : Holds queue ⟨memory, tables, .dispatching, parcel.block, owned, log⟩
      ⟨queued, .whole parcel handlers, consumed⟩)
    (recorded : Recorded memory parcel) (due : handlers = [] → parcel.type = .drop) :
    Holds queue
      ⟨storeHandler memory parcel.block .drop, tables, .freeingFrame, parcel.block, owned, log⟩
      ⟨queued, .whole parcel handlers, consumed⟩ where
  lived := holds.lived
  waiting := by
    refine holds.waiting.of_hand holds.layout fun address outside => ?_
    have block := outside _ (List.mem_cons_of_mem _ List.mem_cons_self)
    exact storeHandler_of_ne (by omega)
  holding := .freeingFrame parcel handlers (recorded.storeHandler .drop) due
  owned := holds.owned
  layout := holds.layout

/-- The handler that is found is called. -/
theorem RxState.Holds.call
    (holds : Holds queue ⟨memory, tables, .dispatching, parcel.block, owned, log⟩
      ⟨queued, .whole parcel handlers, consumed⟩)
    (recorded : Recorded memory parcel)
    (expected : Expects parcel.type handlers (pktHandler memory parcel.block)) :
    Holds queue
      ⟨memory, tables, .handling, parcel.block, owned,
        log ++ [.handle parcel.block (pktHandler memory parcel.block)]⟩
      ⟨queued, .whole parcel (pktHandler memory parcel.block :: handlers), consumed⟩ where
  lived := (Follows.handle queued parcel handlers consumed _ expected).run holds.lived
  waiting := holds.waiting
  holding := .handling parcel handlers recorded
  owned := holds.owned
  layout := holds.layout

/-- A handler that swaps nothing but the frame writes nothing but the frame. -/
theorem handled_of_outside {s : RxState} (recorded : Recorded s.memory parcel)
    (here : s.pkt = parcel.block) (handling : s.point = .handling)
    (inside : s.SwapsInFrame .rx) {address : Nat}
    (outside : Outside [(parcel.frame, parcel.len)] address) :
    s.stack.handle.pkt.memory address = s.memory address := by
  have bounds := inside handling
  rw [RxState.HeaderInFrame, here, recorded.data, recorded.dataLength] at bounds
  have frame := outside _ List.mem_cons_self
  have kept : s.stack.handle.pkt.memory address = s.stack.pkt.memory address :=
    handle_memory_outside s.stack (by omega)
  exact kept

/-- A handler returns. -/
theorem RxState.Holds.handled
    (holds : Holds queue ⟨memory, tables, .handling, parcel.block, owned, log⟩
      ⟨queued, .whole parcel (pktHandler memory parcel.block :: handlers), consumed⟩)
    (recorded : Recorded memory parcel)
    (inside : RxState.SwapsInFrame ⟨memory, tables, .handling, parcel.block, owned, log⟩ .rx)
    {after : Stack}
    (returned : (RxState.stack ⟨memory, tables, .handling, parcel.block, owned, log⟩).handle =
      after) :
    Holds queue
      ⟨storePacket after.pkt parcel.block, after.tables,
        if after.pkt.handler = .drop then .freeingFrame else .dispatching, parcel.block, owned,
        log⟩
      ⟨queued, .whole parcel (pktHandler memory parcel.block :: handlers), consumed⟩ := by
  have kept : ∀ address, Outside [(parcel.frame, parcel.len)] address →
      after.pkt.memory address = memory address := by
    intro address outside
    rw [← returned]
    exact handled_of_outside recorded rfl rfl inside outside
  have own : Recorded (storePacket after.pkt parcel.block) parcel := by
    have apart := (List.pairwise_cons.mp holds.layout.apart).2
    have frame := (List.pairwise_cons.mp apart).1 _ List.mem_cons_self
    have fields : Same memory after.pkt.memory (parcel.block, 36) :=
      same_of_outside kept (List.forall_mem_singleton.mpr frame.symm)
    exact (recorded.congr (fields.part (by decide : 0 + 28 ≤ 36))).storePacket
  have passes : after.pkt.handler = .drop ∨
      (pktHandler memory parcel.block).Passes after.pkt.handler := by
    rw [← returned]
    exact passes_handle
  constructor
  · exact holds.lived
  · refine holds.waiting.of_hand holds.layout fun address outside => ?_
    rcases List.forall_mem_cons.mp outside with ⟨frame, rest⟩
    have block := rest _ List.mem_cons_self
    have written : storePacket after.pkt parcel.block address = after.pkt.memory address :=
      storePacket_of_outside (by omega)
    exact written.trans (kept address (List.forall_mem_singleton.mpr frame))
  · by_cases dropped : after.pkt.handler = .drop
    · rw [if_pos dropped]
      refine .freeingFrame parcel _ own fun none => ?_
      cases none
    · rw [if_neg dropped]
      refine .dispatching parcel _ own (fun _ => ?_) fun gone => ?_
      · rw [pktHandler_storePacket]
        exact passes.resolve_left dropped
      · rw [pktHandler_storePacket] at gone
        exact absurd gone dropped
  · exact holds.owned
  · exact holds.layout

/-- The first pointer that is freed is the frame's, for `data` is as it was. -/
theorem RxState.Holds.freeFrame
    (holds : Holds queue ⟨memory, tables, .freeingFrame, parcel.block, owned, log⟩
      ⟨queued, .whole parcel handlers, consumed⟩)
    (due : handlers = [] → parcel.type = .drop) :
    Holds queue
      ⟨memory, tables, .freeingPacket, parcel.block,
        owned.filter fun range => range.1 ≠ parcel.frame, log ++ [.free parcel.frame]⟩
      ⟨queued, .frameFreed parcel handlers, consumed⟩ where
  lived := (Follows.freeFrame queued parcel handlers consumed due).run holds.lived
  waiting := holds.waiting
  holding := .freeingPacket parcel handlers
  owned := by
    refine (holds.owned.filter _).trans (.of_eq ?_)
    exact filter_eq_of_apart (List.pairwise_cons.mp holds.layout.apart).2
      fun each member => (holds.layout.spans each member).2.1
  layout := holds.layout.sublist (List.sublist_cons_self _ _)

theorem RxState.Holds.freePacket
    (holds : Holds queue ⟨memory, tables, .freeingPacket, parcel.block, owned, log⟩
      ⟨queued, .frameFreed parcel handlers, consumed⟩) :
    Holds queue
      ⟨memory, tables, .popping, parcel.block,
        owned.filter fun range => range.1 ≠ parcel.block, log ++ [.free parcel.block]⟩
      ⟨queued, .nothing, (parcel, handlers) :: consumed⟩ where
  lived := (Follows.freePacket queued parcel handlers consumed).run holds.lived
  waiting := holds.waiting
  holding := .popping parcel.block
  owned := by
    refine (holds.owned.filter _).trans (.of_eq ?_)
    exact filter_eq_of_apart (List.pairwise_cons.mp holds.layout.apart).2
      fun each member => (holds.layout.spans each member).2.1
  layout := holds.layout.sublist (List.sublist_cons_self _ _)

/-- What `list_pop` finds first. -/
theorem Waiting.next_head {parcels : List Parcel} (waiting : Waiting queue memory parcels) :
    (load32 memory queue.pktRxQ).toNat = (parcels.map Parcel.node).headD queue.pktRxQ :=
  waiting.ring.next_head

/-- Every handler leaves less to be done. -/
theorem work_handled {protocol next : ProtocolType}
    (passes : next = .drop ∨ protocol.Passes next) :
    RxPoint.work (if next = .drop then .freeingFrame else .dispatching) next.handlersLeft <
      RxPoint.work .handling protocol.handlersLeft := by
  by_cases dropped : next = .drop
  · have least := handlersLeft_pos protocol
    rw [if_pos dropped, RxPoint.work, RxPoint.work]
    omega
  · have fewer := Protocol.Passes.handlersLeft (passes.resolve_left dropped)
    rw [if_neg dropped, RxPoint.work, RxPoint.work]
    omega

/-- One step of `rx_task`, by the places where it can be: the invariant is kept, and less is
to be done. -/
theorem RxState.Holds.rx {s s' : RxState} {c : Custody} (holds : Holds queue s c)
    (inside : s.SwapsInFrame .rx) (taken : s.rx queue = some s') :
    ∃ c', Holds queue s' c' ∧ s'.work c' < s.work c := by
  rcases s with ⟨memory, tables, point, pkt, owned, log⟩
  rcases c with ⟨queued, hand, consumed⟩
  have holding : Holding memory point pkt hand := holds.holding
  cases holding with
  | popping =>
      rcases Option.ite_none_left_eq_some.mp taken with ⟨occupied, taken⟩
      cases taken
      have next := holds.waiting.next_head
      cases queued with
      | nil => exact absurd next occupied
      | cons parcel queued =>
          change (load32 memory queue.pktRxQ).toNat = parcel.node at next
          rw [next, Parcel.node, Nat.add_sub_cancel]
          refine ⟨_, holds.pop, ?_⟩
          have most := handlersLeft_le
            (pktHandler (Stored.listDel memory (parcel.block + 28)) parcel.block)
          simp only [RxState.work, RxPoint.work, List.length_cons]
          omega
  | dispatching parcel handlers recorded expected due =>
      by_cases dropped : pktHandler memory parcel.block = .drop
      · cases (if_pos dropped).symm.trans taken
        refine ⟨_, holds.dismiss recorded (due dropped), ?_⟩
        have least := handlersLeft_pos (pktHandler memory parcel.block)
        simp only [RxState.work, RxPoint.work]
        omega
      · cases (if_neg dropped).symm.trans taken
        refine ⟨_, holds.call recorded (expected dropped), ?_⟩
        simp only [RxState.work, RxPoint.work]
        omega
  | handling parcel handlers recorded =>
      rcases Option.ite_none_left_eq_some.mp taken with ⟨_, taken⟩
      cases taken
      refine ⟨_, holds.handled recorded inside rfl, ?_⟩
      simp only [RxState.work, pktHandler_storePacket]
      exact Nat.add_lt_add_left (work_handled passes_handle) _
  | freeingFrame parcel handlers recorded due =>
      cases taken
      have freed := holds.freeFrame due
      rw [← recorded.data] at freed
      exact ⟨_, freed, Nat.lt_succ_self _⟩
  | freeingPacket parcel handlers =>
      cases taken
      exact ⟨_, holds.freePacket, Nat.lt_succ_self _⟩

end Task

end Lpc17xx.Packets
