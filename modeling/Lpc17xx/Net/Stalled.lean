import Lpc17xx.Net.Wakeups

/-!
# The queue behind an unanswered request

`ip4_tx_task` resolves addresses itself.  While it sleeps in `resolve_address`, all that
is in `ip4_tx_queue` waits behind the packet in hand, whatever its next hop is.  It is
woken by the first ARP reply for us that `rx_task` handles, and by nothing else: `arp_tick`
takes the request off the list when it has timed out, and does not wake `arp_waitqueue`.
-/

namespace Lpc17xx.Net

open Lpc17xx.Arp
open Lpc17xx.Heap (SoundHeap linkedHeap)
open Lpc17xx.Heap.HeapState (linkedPlace)
open Lpc17xx.Link
open Lpc17xx.Memory
open Lpc17xx.Protocol
open Lpc17xx.Queue
open Lpc17xx.Tcp
open Lpc17xx.Transition

/-- The steps of `ip4_tx_task`. -/
def NetEvent.OfIp4TxTask {B : Type} : NetEvent B → Prop
  | .ip4Pop | .ip4Xmit | .ip4Resume | .wait .ip4Tx => True
  | _ => False

namespace State

variable {H B : Type}

/-- `ip4_tx_task` sleeps in `resolve_address`, with this packet in hand. -/
structure Stalled (txPkt : Ip4Entry B) (s : State H B) : Prop where
  resolving : s.txPkt = some (.resolving txPkt)
  asleep : ∃ waitproc ∈ s.waiting, waitproc.proc = .ip4Tx ∧ waitproc.queue = .arp

/-- `rx_task` does not handle a reply for us. -/
def Unanswered (s : State H B) : NetEvent B → Prop
  | .rxHandle => ∀ packet ∈ s.arpPacket, ¬RepliesToUs packet
  | _ => True

instance (s : State H B) : ∀ event, Decidable (s.Unanswered event)
  | .rxHandle => inferInstanceAs (Decidable (∀ packet ∈ s.arpPacket, ¬RepliesToUs packet))
  | .fragment .. | .rxPop | .ip4Pop | .ip4Xmit | .ip4Resume | .etherPop | .etherXmit | .wait _
  | .arpTick | .getOther _ | .freeOther _ | .xmitOther .. | .setOther .. | .wakeupOther =>
      inferInstanceAs (Decidable True)

/-- What neither gets past a task that sleeps in `resolve_address` nor wakes it. -/
structure PassesBy (s after : State H B) : Prop where
  txPkt : after.txPkt = s.txPkt
  ip4TxQueue : ∃ newer, after.ip4TxQueue = newer ++ s.ip4TxQueue
  asleep : ∀ waitproc ∈ s.waiting, waitproc.queue = .arp → waitproc ∈ after.waiting

/-- A step that leaves the task asleep: it is none of the task's own, and what was queued
stays queued, in its order. -/
structure LeavesAsleep (txPkt : Ip4Entry B) (s : State H B) (event : NetEvent B)
    (after : State H B) : Prop where
  stalled : after.Stalled txPkt
  ip4TxQueue : ∃ newer, after.ip4TxQueue = newer ++ s.ip4TxQueue
  others : ¬event.OfIp4TxTask

variable {s middle after : State H B} {txPkt : Ip4Entry B}

theorem Stalled.not_runs (stalled : s.Stalled txPkt) : ¬s.Runs .ip4Tx := by
  rcases stalled.asleep with ⟨waitproc, member, sleeper, _⟩
  intro runs
  exact runs waitproc member sleeper

theorem PassesBy.trans (first : PassesBy s middle) (second : PassesBy middle after) :
    PassesBy s after := by
  rcases first.ip4TxQueue with ⟨older, grown⟩
  rcases second.ip4TxQueue with ⟨newer, further⟩
  refine ⟨second.txPkt.trans first.txPkt, ⟨newer ++ older, ?_⟩, ?_⟩
  · rw [further, grown, List.append_assoc]
  · intro waitproc member queue
    exact second.asleep waitproc (first.asleep waitproc member queue) queue

/-- What touches neither the task, nor its queue, nor a wait queue. -/
theorem passesBy_of_eq (txPkt : after.txPkt = s.txPkt)
    (ip4TxQueue : after.ip4TxQueue = s.ip4TxQueue) (waiting : after.waiting = s.waiting) :
    PassesBy s after :=
  ⟨txPkt, ⟨[], ip4TxQueue⟩, fun _ member _ => waiting ▸ member⟩

theorem Stalled.passesBy (stalled : s.Stalled txPkt) (passes : PassesBy s after) :
    after.Stalled txPkt := by
  rcases stalled.asleep with ⟨waitproc, member, sleeper, queue⟩
  exact ⟨passes.txPkt.trans stalled.resolving,
    ⟨waitproc, passes.asleep waitproc member queue, sleeper, queue⟩⟩

theorem Queues.passesBy {ip4 ether : Nat} {woken : List Waitq}
    (queues : Queues s after ip4 ether woken) (spared : .arp ∉ woken) : PassesBy s after := by
  refine ⟨queues.txPkt, queues.ip4TxQueue.imp fun _ grown => grown.1, ?_⟩
  intro waitproc member queue
  rw [queues.waiting]
  apply List.mem_filter.mpr ⟨member, _⟩
  rw [queue]
  exact decide_eq_true spared

variable [DecidableEq B] {mem : Allocator H B}

theorem passesBy_irqEnet {statusInfo : UInt32} {memory : Bytes} {stale : Ipv4PktInfo}
    (taken : s.irqEnet mem statusInfo memory stale = some after) : PassesBy s after := by
  rcases irqEnet_eq_some taken with ⟨middle, queues, ⟨currentFrame, rfl⟩ | ⟨pkt, rfl⟩⟩
  · exact (queues.passesBy List.not_mem_nil).trans (passesBy_of_eq rfl rfl rfl)
  · have injected : PassesBy middle { middle with pktRxQ := pkt :: middle.pktRxQ } :=
      passesBy_of_eq rfl rfl rfl
    exact (queues.passesBy List.not_mem_nil).trans
      (injected.trans ((queues_waitqueueWakeup .rx).passesBy (by decide)))

/-- A round of `rx_task` goes past the task, unless it handles a reply for us.  Then nobody
sleeps on `arp_waitqueue`. -/
theorem rxHandle_asleep (handled : s.rxHandle mem = some after) :
    (s.Unanswered .rxHandle → PassesBy s after) ∧
      (¬s.Unanswered .rxHandle → ∀ waitproc ∈ after.waiting, waitproc.queue ≠ .arp) := by
  rcases rxHandle_eq_some handled with
    ⟨_, middle, _, _, _, _, woken, _, _, _, wakes, queues, rfl, _⟩
  constructor
  · intro unanswered
    have spared : .arp ∉ woken := by
      intro replied
      rcases wakes.mp replied with ⟨packet, here, ours⟩
      exact unanswered packet here ours
    exact (queues.passesBy spared).trans (passesBy_of_eq rfl rfl rfl)
  · intro answered waitproc member queue
    apply (queues.asleep member).2
    rw [queue, wakes]
    by_contra nobody
    exact answered fun packet here ours => nobody ⟨packet, here, ours⟩

/-- An event leaves the task asleep exactly if it is no reply for us. -/
theorem leavesAsleep_iff {event : NetEvent B} (stalled : s.Stalled txPkt)
    (taken : step mem s event = some after) :
    LeavesAsleep txPkt s event after ↔ s.Unanswered event := by
  have passed (passes : PassesBy s after) (others : ¬event.OfIp4TxTask) :
      LeavesAsleep txPkt s event after :=
    ⟨stalled.passesBy passes, passes.ip4TxQueue, others⟩
  have sleeps {action : Option (State H B)} {next : State H B} :
      (if s.Runs .ip4Tx then action else none) ≠ some next := by
    rw [if_neg stalled.not_runs]
    exact (Option.some_ne_none next).symm
  cases event with
  | fragment statusInfo memory stale =>
      exact iff_of_true (passed (passesBy_irqEnet taken) id) trivial
  | rxPop =>
      rcases Option.ite_none_right_eq_some.mp taken with ⟨_, popped⟩
      rcases rxPop_eq_some popped with ⟨_, _, _, _, rfl⟩
      exact iff_of_true (passed (passesBy_of_eq rfl rfl rfl) id) trivial
  | rxHandle =>
      rcases rxHandle_asleep (Option.ite_none_right_eq_some.mp taken).2 with ⟨passes, wakes⟩
      constructor
      · intro leaves
        by_contra answered
        rcases leaves.stalled.asleep with ⟨waitproc, member, _, queue⟩
        exact wakes answered waitproc member queue
      · exact fun unanswered => passed (passes unanswered) id
  | ip4Pop => exact absurd taken sleeps
  | ip4Xmit => exact absurd taken sleeps
  | ip4Resume => exact absurd taken sleeps
  | etherPop =>
      rcases Option.ite_none_right_eq_some.mp taken with ⟨_, popped⟩
      rcases etherPop_eq_some popped with ⟨_, _, _, _, rfl⟩
      exact iff_of_true (passed (passesBy_of_eq rfl rfl rfl) id) trivial
  | etherXmit =>
      rcases etherXmit_eq_some (Option.ite_none_right_eq_some.mp taken).2 with ⟨_, _, _, rfl⟩
      exact iff_of_true (passed (passesBy_of_eq rfl rfl rfl) id) trivial
  | wait proc =>
      rcases waitqueueWait_eq_some (Option.ite_none_right_eq_some.mp taken).2 with
        ⟨queue, block, heap, _, asleep⟩
      have passes : PassesBy s after := by
        rw [asleep]
        exact ⟨rfl, ⟨[], rfl⟩, fun _ member _ => List.mem_cons_of_mem _ member⟩
      refine iff_of_true (passed passes ?_) trivial
      intro own
      cases proc with
      | ip4Tx => exact sleeps taken
      | rx => exact own
      | etherTx => exact own
      | thread id => exact own
  | arpTick =>
      cases taken
      exact iff_of_true (passed (passesBy_of_eq rfl rfl rfl) id) trivial
  | getOther size =>
      rcases Option.map_eq_some_iff.mp taken with ⟨⟨block, first⟩, got, rfl⟩
      have passes : PassesBy first { first with others := block :: first.others } :=
        passesBy_of_eq rfl rfl rfl
      have grown := (queues_getMem got).passesBy List.not_mem_nil
      exact iff_of_true (passed (grown.trans passes) id) trivial
  | freeOther block =>
      rcases Option.ite_none_right_eq_some.mp taken with ⟨_, freed⟩
      cases freed
      exact iff_of_true (passed (passesBy_of_eq rfl rfl rfl) id) trivial
  | xmitOther dstIp payloadLen =>
      have passes := (queues_ip4XmitPacket taken).passesBy (by decide)
      exact iff_of_true (passed passes id) trivial
  | setOther tcbHead udpRxRequests =>
      cases taken
      exact iff_of_true (passed (passesBy_of_eq rfl rfl rfl) id) trivial
  | wakeupOther =>
      cases taken
      have passes : PassesBy s (s.waitqueueWakeup mem .tcp) :=
        (queues_waitqueueWakeup .tcp).passesBy (by decide)
      exact iff_of_true (passed passes id) trivial

end State

/-- From every state in which `ip4_tx_task` sleeps in `resolve_address`, in every run of frames
that hold their headers, tasks, ticks and whatever else happens: the steps leave it asleep and
what is queued behind it queued, in its order, exactly as long as `rx_task` handles no ARP
reply for us.  Neither other packets nor the time-out of the request get it going. -/
theorem stalled_until_reply {H B : Type} [DecidableEq B] (mem : Allocator H B)
    (start last : State H B) (events : List (NetEvent B)) (txPkt : Ip4Entry B)
    (stalled : start.Stalled txPkt) (followed : State.Followed mem start events last) :
    (Along (State.step mem) (State.LeavesAsleep txPkt) start events ↔
        Guarded (State.step mem) State.Unanswered start events) ∧
      (Guarded (State.step mem) State.Unanswered start events →
        last.Stalled txPkt ∧ ∃ newer, last.ip4TxQueue = newer ++ start.ip4TxQueue) := by
  constructor
  · have kept : ∀ s event after, s.Stalled txPkt → s.Unanswered event →
        State.step mem s event = some after → after.Stalled txPkt := by
      intro s event after asleep unanswered taken
      exact ((State.leavesAsleep_iff asleep taken).mpr unanswered).stalled
    exact along_iff_guarded kept (fun s event after => State.leavesAsleep_iff) stalled
  · intro unanswered
    let behind : State H B → Prop := fun s =>
      s.Stalled txPkt ∧ ∃ newer, s.ip4TxQueue = newer ++ start.ip4TxQueue
    have kept : ∀ s event after, behind s → s.Unanswered event →
        State.step mem s event = some after → behind after := by
      rintro s event after ⟨asleep, older, queued⟩ unanswered taken
      have leaves := (State.leavesAsleep_iff asleep taken).mpr unanswered
      rcases leaves.ip4TxQueue with ⟨newer, grown⟩
      exact ⟨leaves.stalled, newer ++ older, by rw [grown, queued, List.append_assoc]⟩
    exact invariant_of_guarded kept ⟨stalled, [], rfl⟩ unanswered followed.executed

/-- Packets for two hosts that nobody has asked for yet. -/
def askedFor : List (NetEvent Nat) :=
  [.xmitOther 0xC0A80008 28, .xmitOther 0xC0A80007 28, .ip4Pop, .ip4Xmit, .wait .ip4Tx]

theorem isSome_askedFor : (run (State.step linkedHeap) idle askedFor).isSome = true := by
  decide +kernel

/-- `ip4_tx_task` waits for the answer. -/
def asking : State (SoundHeap linkedPlace) Nat :=
  (run (State.step linkedHeap) idle askedFor).get isSome_askedFor

/-- The request goes out, the host asks for our address itself, and the request of
`ip4_tx_task` times out. -/
def requestTimesOut : List (NetEvent Nat) :=
  [.etherPop, .etherXmit, received arpRequestBytes, .rxPop, .rxHandle, .rxHandle] ++
    List.replicate 251 .arpTick

theorem isSome_requestTimesOut :
    (run (State.step linkedHeap) asking requestTimesOut).isSome = true := by
  decide +kernel

/-- The packet in hand, and the queue behind it, after the time-out. -/
theorem stalled_until_reply_example :
    ∃ last, run (State.step linkedHeap) asking requestTimesOut = some last ∧
      last.Stalled ⟨0xC0A80007, 28, 0x2007C048, 0x2007C068⟩ ∧
      (∃ newer, last.ip4TxQueue = newer ++ asking.ip4TxQueue) ∧
      asking.ip4TxQueue.length = 1 ∧ last.tables.arpFinished.any (·.timedOut) = true := by
  have executed := (Option.some_get isSome_requestTimesOut).symm
  have stalled : asking.Stalled ⟨0xC0A80007, 28, 0x2007C048, 0x2007C068⟩ :=
    ⟨by decide +kernel, by decide +kernel⟩
  have inside : Guarded (State.step linkedHeap) State.HeaderInFrame asking requestTimesOut := by
    decide +kernel
  rcases (stalled_until_reply linkedHeap _ _ _ _ stalled ⟨executed, inside⟩).2
    (by decide +kernel) with ⟨asleep, queued⟩
  exact ⟨_, executed, asleep, queued, by decide +kernel, by decide +kernel⟩

end Lpc17xx.Net
