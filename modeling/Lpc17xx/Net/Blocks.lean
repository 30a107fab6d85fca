import Lpc17xx.Net.Core

/-!
# What becomes of the blocks

Every block that a function of the network code allocates is freed by it, put into
a queue or a table, or dropped.  Each function has one lemma, which says what it
leaves in hand; a block left in hand when the function returns is lost.
-/

namespace Lpc17xx.Net

open Lpc17xx.Arp
open Lpc17xx.Link
open Lpc17xx.Memory
open Lpc17xx.Protocol
open Lpc17xx.Queue
open Lpc17xx.Tcp
open Lpc17xx.Transition

section Blocks

variable {B : Type}

def RxPkt.blocks (rxPkt : RxPkt B) : Multiset B :=
  {rxPkt.data} + {rxPkt.block}

def Ip4Entry.blocks (txPkt : Ip4Entry B) : Multiset B :=
  {txPkt.payload} + {txPkt.block}

def EtherEntry.blocks (txdPkt : EtherEntry B) : Multiset B :=
  {txdPkt.payload} + {txdPkt.block}

def TxPkt.blocks : TxPkt B → Multiset B
  | .popped txPkt => txPkt.blocks
  | .resolving txPkt => txPkt.blocks

end Blocks

namespace State

variable {H B : Type}

/-- The blocks of the packets on their way, in a queue or with a task. -/
def inFlight (s : State H B) : Multiset B :=
  s.currentFrame.elim 0 (fun frame => {frame.1}) +
    ((s.pktRxQ.map RxPkt.blocks).sum + s.rxPkt.elim 0 RxPkt.blocks) +
    ((s.ip4TxQueue.map Ip4Entry.blocks).sum + s.txPkt.elim 0 TxPkt.blocks) +
    ((s.etherTxQueue.map EtherEntry.blocks).sum + s.txdPkt.elim 0 EtherEntry.blocks)

/-- The blocks of the processes that wait. -/
def waitNodes (s : State H B) : Multiset B :=
  (s.waiting.map fun waitproc => ({waitproc.block} : Multiset B)).sum

/-- The blocks that something in the state refers to. -/
def owned (s : State H B) : Multiset B :=
  s.inFlight + s.waitNodes + s.arpTable + s.others

/-! A pop takes the entry in front, for a task that holds none. -/

theorem rxPop_eq_some {s after : State H B} (popped : s.rxPop = some after) :
    ∃ pkt rest, s.rxPkt = none ∧ s.pktRxQ = pkt :: rest ∧
      after = { s with pktRxQ := rest, rxPkt := some pkt } := by
  unfold rxPop at popped
  split at popped
  · rename_i idle found
    cases popped
    exact ⟨_, _, idle, eq_cons_of_listPop found, rfl⟩
  · contradiction

theorem ip4Pop_eq_some {s after : State H B} (popped : s.ip4Pop = some after) :
    ∃ txPkt rest, s.txPkt = none ∧ s.ip4TxQueue = txPkt :: rest ∧
      after = { s with ip4TxQueue := rest, txPkt := some (.popped txPkt) } := by
  unfold ip4Pop at popped
  split at popped
  · rename_i idle found
    cases popped
    exact ⟨_, _, idle, eq_cons_of_listPop found, rfl⟩
  · contradiction

theorem etherPop_eq_some {s after : State H B} (popped : s.etherPop = some after) :
    ∃ txdPkt rest, s.txdPkt = none ∧ s.etherTxQueue = txdPkt :: rest ∧
      after = { s with etherTxQueue := rest, txdPkt := some txdPkt } := by
  unfold etherPop at popped
  split at popped
  · rename_i idle found
    cases popped
    exact ⟨_, _, idle, eq_cons_of_listPop found, rfl⟩
  · contradiction

variable [DecidableEq B] (mem : Allocator H B)

/-- All live blocks. -/
def live (s : State H B) : Multiset B :=
  (mem.live s.heap).val

/-- What a function does to the blocks in hand.  What the tasks have popped and the
ARP table are as they were. -/
structure Moves (s after : State H B) (hand hand' : Multiset B) : Prop where
  passes : Passes (live mem) owned s after hand hand'
  rxPkt : after.rxPkt = s.rxPkt
  txPkt : after.txPkt = s.txPkt
  txdPkt : after.txdPkt = s.txdPkt
  arpTable : after.arpTable = s.arpTable
  arpTableHead : after.tables.arpTableHead = s.tables.arpTableHead

variable {mem} {s middle after : State H B} {hand hand' hand'' : Multiset B}

namespace Moves

theorem refl (hand : Multiset B) : Moves mem s s hand hand :=
  ⟨.refl hand, rfl, rfl, rfl, rfl, rfl⟩

theorem trans (first : Moves mem s middle hand hand')
    (second : Moves mem middle after hand' hand'') :
    Moves mem s after hand hand'' where
  passes := first.passes.trans second.passes
  rxPkt := second.rxPkt.trans first.rxPkt
  txPkt := second.txPkt.trans first.txPkt
  txdPkt := second.txdPkt.trans first.txdPkt
  arpTable := second.arpTable.trans first.arpTable
  arpTableHead := second.arpTableHead.trans first.arpTableHead

end Moves

/-- Blocks change places on the same heap. -/
theorem passes_moved (heap : after.heap = s.heap)
    (balance : after.owned + hand' = s.owned + hand) :
    Passes (live mem) owned s after hand hand' :=
  .moved (by rw [live, live, heap]) balance

theorem moves_getMem {size : Nat} {block : B} (got : s.getMem mem size = some (block, after)) :
    Moves mem s after hand ({block} + hand) := by
  rcases Option.map_eq_some_iff.mp got with ⟨⟨found, heap⟩, allocated, taken⟩
  cases taken
  exact ⟨.allocated (mem.val_getMem allocated) rfl, rfl, rfl, rfl, rfl, rfl⟩

/-- The heap is all that changes. -/
theorem getMem_eq {size : Nat} {block : B} (got : s.getMem mem size = some (block, after)) :
    after = { s with heap := after.heap } := by
  rcases Option.map_eq_some_iff.mp got with ⟨⟨found, heap⟩, _, taken⟩
  cases taken
  rfl

theorem moves_freeMem (block : B) : Moves mem s (s.freeMem mem block) ({block} + hand) hand :=
  ⟨.freed rfl fun _ holds => mem.val_freeMem holds, rfl, rfl, rfl, rfl, rfl⟩

/-- By induction on the wait nodes that are freed. -/
theorem val_foldl_freeMem {heap : H} {rest : Multiset B} (woken : List (WaitingProc B))
    (holds : (mem.live heap).val =
      (woken.map fun waitproc => ({waitproc.block} : Multiset B)).sum + rest) :
    (mem.live (woken.foldl (fun heap waitproc => mem.freeMem heap waitproc.block) heap)).val =
      rest := by
  induction woken generalizing heap with
  | nil => simpa using holds
  | cons waitproc woken ih =>
      apply ih
      apply mem.val_freeMem
      rw [holds, List.map_cons, List.sum_cons, add_assoc]

omit [DecidableEq B] in
/-- Those on the queue and those that are not. -/
theorem waitNodes_split (waitq : Waitq) :
    s.waitNodes =
      ((s.waiting.filter (·.queue = waitq)).map fun waitproc =>
          ({waitproc.block} : Multiset B)).sum +
        ((s.waiting.filter (·.queue ≠ waitq)).map fun waitproc =>
          ({waitproc.block} : Multiset B)).sum := by
  unfold waitNodes
  induction s.waiting with
  | nil => rfl
  | cons waitproc waiting ih =>
      by_cases same : waitproc.queue = waitq
      · simp [same, ih]
      · simp [same, ih]

theorem moves_waitqueueWakeup (waitq : Waitq) :
    Moves mem s (s.waitqueueWakeup mem waitq) hand hand := by
  refine ⟨?_, rfl, rfl, rfl, rfl, rfl⟩
  intro rest holds
  apply val_foldl_freeMem
  change s.live mem = _
  rw [holds, owned, waitNodes_split waitq]
  change _ = _ + (s.inFlight + ((s.waiting.filter (·.queue ≠ waitq)).map fun waitproc =>
    ({waitproc.block} : Multiset B)).sum + s.arpTable + s.others + (hand + rest))
  abel

theorem moves_etherTx {len : Nat} (sent : s.etherTx mem len = some after) :
    Moves mem s after hand hand := by
  simp only [etherTx, Option.bind_eq_bind, Option.bind_eq_some_iff, Prod.exists,
    Option.some.injEq] at sent
  rcases sent with ⟨newPacket, first, got, payloadCopy, second, copied, queued⟩
  subst queued
  apply (moves_getMem got).trans
  apply (moves_getMem copied).trans
  apply Moves.trans _ (moves_waitqueueWakeup .etherTx)
  refine ⟨passes_moved rfl ?_, rfl, rfl, rfl, rfl, rfl⟩
  simp only [owned, inFlight, waitNodes, listAdd, List.map_cons, List.sum_cons, EtherEntry.blocks]
  abel

theorem moves_ip4XmitPacket {dstIp : UInt32} {payloadLen : UInt16}
    (sent : s.ip4XmitPacket mem dstIp payloadLen = some after) : Moves mem s after hand hand := by
  simp only [ip4XmitPacket, Option.bind_eq_bind, Option.bind_eq_some_iff, Prod.exists,
    Option.some.injEq] at sent
  rcases sent with ⟨newPacket, first, got, payloadCopy, second, copied, queued⟩
  subst queued
  apply (moves_getMem got).trans
  apply (moves_getMem copied).trans
  apply Moves.trans _ (moves_waitqueueWakeup .ip4Tx)
  refine ⟨passes_moved rfl ?_, rfl, rfl, rfl, rfl, rfl⟩
  simp only [owned, inFlight, waitNodes, listAdd, List.map_cons, List.sum_cons, Ip4Entry.blocks]
  abel

/-- Both buffers are freed again. -/
theorem moves_tcpTx {tx : TcpTx} (sent : s.tcpTx mem tx = some after) :
    Moves mem s after hand hand := by
  simp only [tcpTx, Option.bind_eq_bind, Option.bind_eq_some_iff, Prod.exists,
    Option.some.injEq] at sent
  rcases sent with ⟨sumBuf, first, got, buf, second, copied, third, queued, freed⟩
  subst freed
  apply (moves_getMem got).trans
  apply (moves_freeMem sumBuf).trans
  apply (moves_getMem copied).trans
  apply (moves_ip4XmitPacket queued).trans
  exact moves_freeMem buf

theorem moves_tcpTxs {sent : List TcpTx} (done : s.tcpTxs mem sent = some after) :
    Moves mem s after hand hand := by
  induction sent generalizing s with
  | nil =>
      cases done
      exact .refl hand
  | cons tx sent ih =>
      rcases Option.bind_eq_some_iff.mp done with ⟨first, transmitted, rest⟩
      exact (moves_tcpTx transmitted).trans (ih rest)

theorem moves_tcpRxPacket {sent : List TcpTx} {referenced : Bool}
    (done : s.tcpRxPacket mem sent referenced = some after) : Moves mem s after hand hand := by
  rcases Option.map_eq_some_iff.mp done with ⟨first, transmitted, woken⟩
  subst woken
  apply (moves_tcpTxs transmitted).trans
  split
  · exact moves_waitqueueWakeup .tcp
  · exact .refl hand

/-- The block of the frame is in hand afterwards, and no longer with the driver. -/
theorem moves_gather {fragLen : Nat} {frame : B × Nat}
    (gathered : s.gather mem fragLen = some (frame, after)) :
    Moves mem s after hand ({frame.1} + hand) ∧ after.currentFrame = none := by
  unfold gather at gathered
  split at gathered
  · rename_i currentFrame currentFrameLen current
    simp only [Option.bind_eq_bind, Option.bind_eq_some_iff, Prod.exists, Option.some.injEq,
      Prod.mk.injEq] at gathered
    rcases gathered with ⟨newFrameBuf, first, got, result, freed⟩
    subst result freed
    refine ⟨?_, rfl⟩
    have kept : first.currentFrame = some (currentFrame, currentFrameLen) := by
      rw [getMem_eq got]
      exact current
    apply (moves_getMem got).trans
    apply Moves.trans _ (moves_freeMem currentFrame)
    refine ⟨passes_moved rfl ?_, rfl, rfl, rfl, rfl, rfl⟩
    simp only [owned, inFlight, waitNodes, kept, Option.elim]
    abel
  · rename_i current
    simp only [Option.bind_eq_bind, Option.bind_eq_some_iff, Prod.exists, Option.some.injEq,
      Prod.mk.injEq] at gathered
    rcases gathered with ⟨newFrameBuf, first, got, result, same⟩
    subst result same
    refine ⟨moves_getMem got, ?_⟩
    rw [getMem_eq got]
    exact current

theorem moves_packetInject {frame : B} {frameLen : Nat} {memory : Bytes} {stale : Ipv4PktInfo}
    (injected : s.packetInject mem frame frameLen memory stale = some after) :
    Moves mem s after ({frame} + hand) hand := by
  simp only [packetInject, Option.bind_eq_bind, Option.bind_eq_some_iff, Prod.exists,
    Option.some.injEq] at injected
  rcases injected with ⟨block, first, got, queued⟩
  subst queued
  apply (moves_getMem got).trans
  apply Moves.trans _ (moves_waitqueueWakeup .rx)
  refine ⟨passes_moved rfl ?_, rfl, rfl, rfl, rfl, rfl⟩
  simp only [owned, inFlight, waitNodes, listAdd, List.map_cons, List.sum_cons, RxPkt.blocks]
  abel

theorem moves_irqEnet {statusInfo : UInt32} {memory : Bytes} {stale : Ipv4PktInfo}
    (done : s.irqEnet mem statusInfo memory stale = some after) : Moves mem s after hand hand := by
  simp only [irqEnet, Option.bind_eq_bind, Option.bind_eq_some_iff, Prod.exists] at done
  rcases done with ⟨frame, frameLen, first, gathered, done⟩
  rcases moves_gather gathered with ⟨moves, left⟩
  apply moves.trans
  split at done
  · exact moves_packetInject done
  · cases done
    refine ⟨passes_moved rfl ?_, rfl, rfl, rfl, rfl, rfl⟩
    simp only [owned, inFlight, waitNodes, left, Option.elim]
    abel

/-- The packet and its frame are freed. -/
theorem moves_packetDestroy (rxPkt : RxPkt B) :
    Moves mem s (s.packetDestroy mem rxPkt) (rxPkt.blocks + hand) hand := by
  rw [RxPkt.blocks, add_assoc]
  exact (moves_freeMem rxPkt.data).trans (moves_freeMem rxPkt.block)

/-- A reply leaves the block it was built in. -/
theorem moves_arpRespond (sent : s.arpRespond mem = some after) :
    ∃ resp : B, Moves mem s after hand ({resp} + hand) := by
  simp only [arpRespond, Option.bind_eq_bind, Option.bind_eq_some_iff, Prod.exists] at sent
  rcases sent with ⟨resp, first, got, sent⟩
  exact ⟨resp, (moves_getMem got).trans (moves_etherTx sent)⟩

/-- So does a request. -/
theorem moves_sendRequest {ipAddress : UInt32} (sent : s.sendRequest mem ipAddress = some after) :
    ∃ arpRequest : B, Moves mem s after hand ({arpRequest} + hand) := by
  simp only [sendRequest, Option.bind_eq_bind, Option.bind_eq_some_iff, Prod.exists] at sent
  rcases sent with ⟨arpRequest, first, got, sent⟩
  refine ⟨arpRequest, (moves_getMem got).trans (Moves.trans ?_ (moves_etherTx sent))⟩
  exact ⟨passes_moved rfl rfl, rfl, rfl, rfl, rfl, rfl⟩

/-- A packet that is transmitted leaves nothing behind. -/
theorem moves_ip4DoXmit {txPkt : Ip4Entry B} (sent : s.ip4DoXmit mem txPkt = some after) :
    Moves mem s after hand hand := by
  simp only [ip4DoXmit, Option.bind_eq_bind, Option.bind_eq_some_iff, Prod.exists,
    Option.some.injEq] at sent
  rcases sent with ⟨packetBuf, first, got, second, queued, freed⟩
  subst freed
  exact ((moves_getMem got).trans (moves_etherTx queued)).trans (moves_freeMem packetBuf)

end State

end Lpc17xx.Net
