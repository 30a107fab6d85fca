import Lpc17xx.Packets.Invariant
import Lpc17xx.Protocol.Padding

/-!
# Injected packets are consumed once

Injections may come between any two steps of `rx_task`.  While every handler finds in the frame
all that it swaps, each packet is popped once, handled as far as the protocols lead, and freed
once, frame and `packet_t`.  A handler that swaps beyond the frame can hit the `data` of its
own packet, and then it is another pointer that is freed.
-/

namespace Lpc17xx.Packets

open Lpc17xx.Link
open Lpc17xx.Memory
open Lpc17xx.Protocol
open Lpc17xx.Tcp
open Lpc17xx.Transition

namespace RxState

variable {queue : RxQueue} {s s' : RxState} {c : Custody} {event : RxEvent}

/-- All packets are accounted for: each that was injected is in the queue, in hand or gone;
each that is not in the queue any more was popped, and handled by at most three handlers in the
order of the protocols; of each that is gone the frame and the `packet_t` were freed, and
nothing else was; and what is not freed is still owned.  Unless its next handler swaps beyond
the frame, `rx_task` stands still only when there is nothing to be done, or in a handler that
does not return. -/
structure Accounted (queue : RxQueue) (s : RxState) (c : Custody) : Prop where
  lived : run Custody.follow .empty s.log = some c
  injected : (s.log.filterMap PacketCall.injected?).Perm c.parcels
  popped : (s.log.filterMap PacketCall.popped?).Perm c.popped
  freed : (s.log.filterMap PacketCall.freed?).Perm c.freed
  handlers : ∀ entry ∈ c.handled, Descends entry.1.type entry.2 ∧ entry.2.length ≤ 3
  queued : (Stored.linksIn s.memory).Ring queue.pktRxQ (c.queued.map Parcel.node)
  owned : s.owned.Perm c.ranges
  waits : s.SwapsInFrame .rx → s.rx queue = none →
    c.queued = [] ∧ c.hand = .nothing ∨ s.point = .handling ∧ s.stack.handle.stopped

/-- All packets are accounted for before and after the step, and with every step `rx_task` has
less to do. -/
def Consumes (queue : RxQueue) (s : RxState) (event : RxEvent) (s' : RxState) : Prop :=
  ∃ c c', s.Accounted queue c ∧ s'.Accounted queue c' ∧ (event = .rx → s'.work c' < s.work c)

theorem holds_start (queue : RxQueue) (memory : Bytes) (tables : Tables) :
    Holds queue (start queue memory tables) .empty where
  lived := rfl
  waiting := ⟨Stored.ring_initList queue.below, fun _ member => absurd member List.not_mem_nil⟩
  holding := .popping 0
  owned := List.Perm.refl _
  layout := ⟨List.pairwise_singleton _ _, fun _ member => absurd member List.not_mem_nil⟩

/-- The calls made so far are a history of packets, and this is where they are. -/
def Sound (queue : RxQueue) (s : RxState) : Prop :=
  ∃ c, Holds queue s c

theorem sound_start (queue : RxQueue) (memory : Bytes) (tables : Tables) :
    Sound queue (start queue memory tables) :=
  ⟨.empty, holds_start queue memory tables⟩

/-- Only an empty queue and a handler that does not return hold `rx_task` up. -/
theorem Holds.waits (holds : Holds queue s c) (inside : s.SwapsInFrame .rx)
    (still : s.rx queue = none) :
    c.queued = [] ∧ c.hand = .nothing ∨ s.point = .handling ∧ s.stack.handle.stopped := by
  rcases s with ⟨memory, tables, point, pkt, owned, log⟩
  rcases c with ⟨queued, hand, consumed⟩
  have holding : Holding memory point pkt hand := holds.holding
  cases holding with
  | popping =>
      by_cases empty : (load32 memory queue.pktRxQ).toNat = queue.pktRxQ
      · exact .inl ⟨List.map_eq_nil_iff.mp (holds.waiting.ring.next_head_eq_iff.mp empty), rfl⟩
      · cases (if_neg empty).symm.trans still
  | dispatching parcel handlers recorded expected due =>
      by_cases dropped : pktHandler memory parcel.block = .drop
      · cases (if_pos dropped).symm.trans still
      · cases (if_neg dropped).symm.trans still
  | handling parcel handlers recorded =>
      refine .inr ⟨rfl, ?_⟩
      by_contra returns
      have kept : ¬RxState.Strays ⟨memory, tables, .handling, parcel.block, owned, log⟩ :=
        fun strays => strays.1 (inside rfl)
      cases (if_neg (not_or.mpr ⟨returns, kept⟩)).symm.trans still
  | freeingFrame => cases still
  | freeingPacket => cases still

theorem Holds.accounted (holds : Holds queue s c) : s.Accounted queue c where
  lived := holds.lived
  injected := by
    have all := perm_injected holds.lived
    rwa [show Custody.empty.parcels = [] from rfl, List.append_nil] at all
  popped := by
    have all := perm_popped holds.lived
    rwa [show Custody.empty.popped = [] from rfl, List.append_nil] at all
  freed := by
    have all := perm_freed holds.lived
    rwa [show Custody.empty.freed = [] from rfl, List.append_nil] at all
  handlers := by
    intro entry member
    have descends := descends_of_run (fun _ none => absurd none List.not_mem_nil) holds.lived
      entry member
    exact ⟨descends, descends.length_le⟩
  queued := holds.waiting.ring
  owned := holds.owned
  waits := holds.waits

/-- One step of anybody. -/
theorem Holds.step (holds : Holds queue s c) (inside : s.SwapsInFrame event)
    (taken : step queue s event = some s') :
    ∃ c', Holds queue s' c' ∧ (event = .rx → s'.work c' < s.work c) := by
  cases event with
  | inject parcel bytes =>
      rcases Option.ite_none_right_eq_some.mp taken with ⟨⟨fresh, length⟩, injected⟩
      cases injected
      exact ⟨_, holds.inject fresh length, fun no => by cases no⟩
  | rx =>
      rcases holds.rx inside taken with ⟨c', after, less⟩
      exact ⟨c', after, fun _ => less⟩
  | write address byte =>
      rcases Option.ite_none_right_eq_some.mp taken with ⟨outside, written⟩
      cases written
      refine ⟨c, holds.of_outside s.tables fun range member i bound => ?_, fun no => by cases no⟩
      have apart := outside range member
      exact Function.update_of_ne (by omega) _ _
  | others tables =>
      cases taken
      exact ⟨c, holds.of_outside tables fun range _ => Same.refl _ range, fun no => by cases no⟩

end RxState

open RxState

/-- In every run in which each handler finds in its frame all that it swaps, every packet that
is injected is consumed once. -/
theorem packets_consumed (queue : RxQueue) (memory : Bytes) (tables : Tables)
    (events : List RxEvent)
    (inside : Guarded (step queue) SwapsInFrame (start queue memory tables) events) :
    Along (step queue) (Consumes queue) (start queue memory tables) events := by
  refine along_of_guarded (fun s event s' sound inside taken => ?_)
    (fun s event s' sound inside taken => ?_) (sound_start queue memory tables) inside
  · rcases sound with ⟨c, holds⟩
    rcases holds.step inside taken with ⟨c', after, _⟩
    exact ⟨c', after⟩
  · rcases sound with ⟨c, holds⟩
    rcases holds.step inside taken with ⟨c', after, less⟩
    exact ⟨c, c', holds.accounted, after.accounted, less⟩

/-- `pkt_rx_q` at the beginning of `ram1`. -/
def firstQueue : RxQueue where
  pktRxQ := 0x10000000
  below := by decide

/-- A datagram to 192.168.0.171, in a frame that holds its headers and nothing else. -/
def udpFrame : List UInt8 :=
  List.replicate 12 0 ++ [8, 0] ++
    [0x45, 0, 0, 28, 0, 0, 0, 0, 64, 17, 0, 0, 10, 0, 0, 1, 192, 168, 0, 171] ++
    [0, 7, 0, 7, 0, 8, 0, 0]

/-- Two such datagrams, of which the second is injected while the first is handled. -/
theorem packets_consumed_udpFrames :
    Along (step firstQueue) (Consumes firstQueue) (start firstQueue (fun _ => 0) emptyTables)
      ([.inject ⟨0x2007C038, 0x2007C004, 42, .ethernet⟩ udpFrame, .rx, .rx, .rx,
        .inject ⟨0x2007C098, 0x2007C064, 42, .ethernet⟩ udpFrame] ++ List.replicate 15 .rx) :=
  packets_consumed _ _ _ _ (by decide +kernel)

/-- A segment to 192.168.0.171 behind 20 bytes of options, in a frame of 64 bytes, in which
ten bytes of the TCP header are missing. -/
def optionsFrame : List UInt8 :=
  List.replicate 12 0 ++ [8, 0] ++
    [0x4A, 0, 0, 50, 0, 0, 0, 0, 64, 6, 0, 0, 10, 0, 0, 1, 192, 168, 0, 171] ++
    List.replicate 20 0 ++ [0x16, 0x2E, 0, 23, 0, 0, 0, 0, 0, 0]

/-- Two neighbouring blocks. -/
def optionsParcel : Parcel where
  block := 0x2007C24C
  frame := 0x2007C204
  len := 64
  type := .ethernet

/-- A host that listens on the port of the segment.  Without a SYN it is not answered. -/
def listeningTables : Tables :=
  { emptyTables with tcbHead := [tcpListenTcb 0 23 (List.replicate 127 0) length_clearedBlock] }

/-- The lower bytes of the tags between the two blocks are written, then the frame is
injected and handled, and `packet_destroy` begins. -/
def optionsReceived : List RxEvent :=
  [.write 0x2007C244 0x49, .write 0x2007C248 0x2D, .inject optionsParcel optionsFrame] ++
    List.replicate 8 .rx

/-- The `urg_ptr` that `tcp_rx_packet` swaps is the lower half of `data` in the `packet_t`
behind the frame, and another pointer than the frame's is freed. -/
theorem packets_not_consumed_optionsFrame :
    ¬Along (step firstQueue) (Consumes firstQueue)
      (start firstQueue (fun _ => 0) listeningTables) optionsReceived := by
  have calls : (run (step firstQueue) (start firstQueue (fun _ => 0) listeningTables)
      optionsReceived).map (fun s => (s.log, s.tables.tcpSent)) =
      some ([.inject optionsParcel, .pop 0x2007C24C, .handle 0x2007C24C .ethernet,
        .handle 0x2007C24C .ipv4, .handle 0x2007C24C .tcp, .free 0x200704C2], []) := by
    decide +kernel
  rcases Option.map_eq_some_iff.mp calls with ⟨target, executed, calls⟩
  have log := (Prod.mk.inj calls).1
  intro along
  have split : optionsReceived = optionsReceived.dropLast ++ [.rx] := rfl
  rw [split] at along executed
  rcases along.last executed with ⟨_, _, c', _, accounted, _⟩
  have lived := accounted.lived
  rw [log] at lived
  exact absurd lived.symm (Option.some_ne_none c')

end Lpc17xx.Packets
