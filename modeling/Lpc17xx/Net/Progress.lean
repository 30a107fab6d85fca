import Lpc17xx.Net.Stalled
import Lpc17xx.Transition.Refinement

/-!
# The network tasks come to rest

Once no frame comes in and nobody else transmits, the tasks come to rest, in whatever order
they take their steps.  A received packet pays for the rounds of its handlers and for what
they transmit, and an entry of `ip4_tx_queue` for the request that it may have to wait for
and for the entry of `ether_tx_queue` that it becomes.  Each of these steps pays for the
tasks that it wakes as well.
-/

namespace Lpc17xx.Protocol

theorem ProtocolType.handlersLeft_le (handler : ProtocolType) : handler.handlersLeft ≤ 3 := by
  cases handler <;> decide

theorem ProtocolType.handlersLeft_pos (handler : ProtocolType) : 0 < handler.handlersLeft := by
  cases handler <;> decide

end Lpc17xx.Protocol

namespace Lpc17xx.Net

open Lpc17xx.Arp
open Lpc17xx.Heap (SoundHeap linkedHeap)
open Lpc17xx.Heap.HeapState (linkedPlace)
open Lpc17xx.Link
open Lpc17xx.Memory
open Lpc17xx.Protocol
open Lpc17xx.Queue
open Lpc17xx.Tcp
open Lpc17xx.Transition

/-- What is left for the packet that `rx_task` holds: each round, and a segment or a reply
that it may transmit. -/
def RxPkt.work {B : Type} (pkt : RxPkt B) : Nat :=
  10 * pkt.pkt.handler.handlersLeft

/-- The entry that `ip4_tx_task` has popped. -/
def TxPkt.entry {B : Type} : TxPkt B → Ip4Entry B
  | .popped txPkt | .resolving txPkt => txPkt

/-- What is left for the packet that `ip4_tx_task` holds. -/
def TxPkt.work {B : Type} : TxPkt B → Nat
  | .popped _ => 6
  | .resolving _ => 3

namespace State

variable {H B : Type}

/-- What is left for the tasks to do with the packets that there are. -/
def work (s : State H B) : Nat :=
  31 * s.pktRxQ.length + s.rxPkt.elim 0 RxPkt.work +
    (7 * s.ip4TxQueue.length + s.txPkt.elim 0 TxPkt.work) +
    (2 * s.etherTxQueue.length + s.txdPkt.elim 0 fun _ => 1)

/-- How many of the three tasks are awake. -/
def awake (s : State H B) : Nat :=
  (if s.Runs .rx then 1 else 0) + (if s.Runs .ip4Tx then 1 else 0) +
    if s.Runs .etherTx then 1 else 0

/-- At most so many steps of the tasks are left, unless something comes in. -/
def stepsLeft (s : State H B) : Nat :=
  4 * s.work + s.awake

/-- The steps of the three tasks. -/
def effort (_ : State H B) : NetEvent B → Nat
  | .rxPop | .rxHandle | .ip4Pop | .ip4Xmit | .ip4Resume | .etherPop | .etherXmit => 1
  | .wait .rx | .wait .ip4Tx | .wait .etherTx => 1
  | _ => 0

/-- No frame comes in, and nobody else transmits. -/
def NoInput (_ : State H B) : NetEvent B → Prop
  | .fragment .. | .xmitOther .. => False
  | _ => True

instance (s : State H B) : ∀ event, Decidable (s.NoInput event)
  | .fragment .. | .xmitOther .. => inferInstanceAs (Decidable False)
  | .rxPop | .rxHandle | .ip4Pop | .ip4Xmit | .ip4Resume | .etherPop | .etherXmit | .wait _
  | .arpTick | .getOther _ | .freeOther _ | .setOther .. | .wakeupOther =>
      inferInstanceAs (Decidable True)

/-- `rx_task` is in the endless loop of `tcp_rx_packet`, with interrupts off. -/
def Halted (s : State H B) : Prop :=
  ∃ pkt, s.rxPkt = some pkt ∧ (s.handed pkt.pkt).handle.stopped = true

/-- No task asks for more bytes in its next step: 32 are for the checksum of a segment without
payload, and `ip4_tx_task` puts its header before what it has in hand. -/
def largestRequest (s : State H B) : Nat :=
  max 32 (s.txPkt.elim 0 fun txPkt => 20 + txPkt.entry.payloadLen.toNat)

/-- Everything is handled and transmitted, unless a segment has stopped the processor, or
`ip4_tx_task` sleeps in `resolve_address`. -/
structure AtRest (s : State H B) : Prop where
  received : s.rxPkt = none ∧ s.pktRxQ = [] ∨ s.Halted
  ip4Sent : s.txPkt = none ∧ s.ip4TxQueue = [] ∨ ∃ txPkt, s.Stalled txPkt
  etherSent : s.txdPkt = none ∧ s.etherTxQueue = []

variable {s middle after : State H B} {ip4 ether : Nat} {woken : List Waitq}

/-- What `ip4_tx_task` has in hand fits with its header. -/
theorem entry_le_largestRequest {txPkt : TxPkt B} (held : s.txPkt = some txPkt) :
    20 + txPkt.entry.payloadLen.toNat ≤ s.largestRequest := by
  rw [largestRequest, held]
  exact Nat.le_max_right 32 _

theorem le_largestRequest : 32 ≤ s.largestRequest :=
  Nat.le_max_left 32 _

section Work

theorem Queues.work (queues : Queues s after ip4 ether woken) :
    after.work = s.work + 7 * ip4 + 2 * ether := by
  rcases queues.ip4TxQueue with ⟨newer, grown, count⟩
  rw [State.work, State.work, queues.pktRxQ, queues.rxPkt, queues.txPkt, queues.txdPkt, grown,
    List.length_append, count, queues.etherTxQueue]
  omega

theorem work_rxPkt (s : State H B) (rxPkt : Option (RxPkt B)) (heap : H) :
    { s with heap, rxPkt }.work + s.rxPkt.elim 0 RxPkt.work =
      s.work + rxPkt.elim 0 RxPkt.work := by
  unfold work
  dsimp only
  omega

theorem work_txPkt (s : State H B) (txPkt : Option (TxPkt B)) (heap : H) :
    { s with heap, txPkt }.work + s.txPkt.elim 0 TxPkt.work =
      s.work + txPkt.elim 0 TxPkt.work := by
  unfold work
  dsimp only
  omega

theorem awake_le : s.awake ≤ 3 := by
  unfold awake
  split <;> split <;> split <;> decide

/-- A step that leaves less to be done pays for whoever it wakes. -/
theorem stepsLeft_of_work (less : after.work + 1 ≤ s.work) : 1 + after.stepsLeft ≤ s.stepsLeft := by
  have bound : after.awake ≤ 3 := awake_le
  unfold stepsLeft
  omega

variable [DecidableEq B] {mem : Allocator H B}

theorem work_rxHandle (handled : s.rxHandle mem = some after) : after.work + 1 ≤ s.work := by
  rcases rxHandle_eq_some handled with
    ⟨pkt, middle, heap, rxPkt, segments, replies, _, held, few, one, _, queues, rfl, passes⟩
  have grown := queues.work
  have moved := middle.work_rxPkt rxPkt heap
  rw [queues.rxPkt, held] at moved
  simp only [Option.elim_some] at moved
  have fewer : rxPkt.elim 0 RxPkt.work + 10 ≤ pkt.work := by
    cases rxPkt with
    | none =>
        have left := pkt.pkt.handler.handlersLeft_pos
        simp only [Option.elim_none, RxPkt.work]
        omega
    | some passed =>
        have left := passes passed rfl
        simp only [Option.elim_some, RxPkt.work]
        omega
  omega

theorem work_ip4Xmit (sent : s.ip4Xmit mem = some after) : after.work + 1 ≤ s.work := by
  rcases ip4Xmit_eq_some sent with ⟨txPkt, middle, heap, rest, popped, outcome, queues, rfl⟩
  have grown := queues.work
  have moved := middle.work_txPkt rest heap
  rw [queues.txPkt, popped] at moved
  rcases outcome with rfl | rfl
  all_goals
    simp only [Option.elim, TxPkt.work] at moved
    omega

theorem work_ip4Resume (resumed : s.ip4Resume mem = some after) : after.work + 1 ≤ s.work := by
  rcases ip4Resume_eq_some resumed with
    ⟨txPkt, middle, heap, sent, _, resolving, one, queues, rfl⟩
  have grown := queues.work
  have moved := middle.work_txPkt none heap
  rw [queues.txPkt, resolving] at moved
  simp only [Option.elim, TxPkt.work] at moved
  omega

theorem work_etherXmit (sent : s.etherXmit mem = some after) : after.work + 1 ≤ s.work := by
  rcases etherXmit_eq_some sent with ⟨txdPkt, heap, held, rfl⟩
  simp only [work, held, Option.elim]
  omega

end Work

section Measure

/-- Nobody has been woken. -/
theorem runs_le {proc : Task}
    (asleep : ∀ waitproc ∈ s.waiting, waitproc.proc = proc → waitproc ∈ after.waiting) :
    (if after.Runs proc then 1 else 0) ≤ if s.Runs proc then 1 else 0 := by
  split
  · rename_i awake
    have runs : s.Runs proc := fun waitproc member same =>
      awake waitproc (asleep waitproc member same) same
    rw [if_pos runs]
  · exact Nat.zero_le _

/-- What wakes none of the tasks and gives them no work. -/
theorem stepsLeft_of_asleep (work : after.work = s.work)
    (asleep : ∀ waitproc ∈ s.waiting, waitproc.queue ≠ .tcp → waitproc ∈ after.waiting)
    (served : s.Served) : after.stepsLeft ≤ s.stepsLeft := by
  have tasks {proc : Task} (task : ∀ id, proc ≠ .thread id) :
      (if after.Runs proc then 1 else 0) ≤ if s.Runs proc then 1 else 0 := by
    apply runs_le
    rintro waitproc member rfl
    apply asleep waitproc member
    intro tcp
    have rightly := served waitproc member
    unfold WaitsRightly at rightly
    cases proc : waitproc.proc with
    | thread id => exact task id proc
    | _ => simp [proc, tcp] at rightly
  have awake : after.awake ≤ s.awake :=
    Nat.add_le_add (Nat.add_le_add (tasks (by simp)) (tasks (by simp))) (tasks (by simp))
  unfold stepsLeft
  omega

variable [DecidableEq B] {mem : Allocator H B}

/-- A task that goes to sleep was awake. -/
theorem stepsLeft_waitqueueWait {proc : Task}
    (task : proc = .rx ∨ proc = .ip4Tx ∨ proc = .etherTx) (runs : s.Runs proc)
    (slept : s.waitqueueWait mem proc = some after) : 1 + after.stepsLeft ≤ s.stepsLeft := by
  rcases waitqueueWait_eq_some slept with ⟨queue, block, heap, _, rfl⟩
  let last : State H B :=
    { s with heap, waiting := listAdd ⟨queue, proc, block⟩ s.waiting }
  have asleep : ¬last.Runs proc := fun runs => runs _ List.mem_cons_self rfl
  have others (other : Task) :
      (if last.Runs other then 1 else 0) ≤ if s.Runs other then 1 else 0 :=
    runs_le fun _ member _ => List.mem_cons_of_mem _ member
  have same : last.work = s.work := rfl
  have fewer : last.awake + 1 ≤ s.awake := by
    have rx := others .rx
    have ip4Tx := others .ip4Tx
    have etherTx := others .etherTx
    unfold awake
    rcases task with rfl | rfl | rfl
    all_goals
      rw [if_neg asleep, if_pos runs]
      omega
  change 1 + last.stepsLeft ≤ s.stepsLeft
  unfold stepsLeft
  omega

/-- The tasks pay for their steps, and nobody else gives them anything to do. -/
theorem Served.lowers {event : NetEvent B} (served : s.Served) (quiet : s.NoInput event)
    (taken : State.step mem s event = some after) :
    s.effort event + after.stepsLeft ≤ s.stepsLeft := by
  have unpaid (work : after.work = s.work) (asleep : ∀ waitproc ∈ s.waiting,
      waitproc.queue ≠ .tcp → waitproc ∈ after.waiting) : 0 + after.stepsLeft ≤ s.stepsLeft := by
    rw [Nat.zero_add]
    exact stepsLeft_of_asleep work asleep served
  cases event with
  | fragment statusInfo memory stale => contradiction
  | xmitOther dstIp payloadLen => contradiction
  | rxPop =>
      rcases Option.ite_none_right_eq_some.mp taken with ⟨_, popped⟩
      rcases rxPop_eq_some popped with ⟨pkt, rest, _, queue, rfl⟩
      apply stepsLeft_of_work
      have bound := pkt.pkt.handler.handlersLeft_le
      simp only [work, queue, Option.elim, List.length_cons, RxPkt.work]
      omega
  | rxHandle =>
      exact stepsLeft_of_work (work_rxHandle (Option.ite_none_right_eq_some.mp taken).2)
  | ip4Pop =>
      rcases Option.ite_none_right_eq_some.mp taken with ⟨_, popped⟩
      rcases ip4Pop_eq_some popped with ⟨txPkt, rest, _, queue, rfl⟩
      apply stepsLeft_of_work
      simp only [work, queue, Option.elim, List.length_cons, TxPkt.work]
      omega
  | ip4Xmit =>
      exact stepsLeft_of_work (work_ip4Xmit (Option.ite_none_right_eq_some.mp taken).2)
  | ip4Resume =>
      exact stepsLeft_of_work (work_ip4Resume (Option.ite_none_right_eq_some.mp taken).2)
  | etherPop =>
      rcases Option.ite_none_right_eq_some.mp taken with ⟨_, popped⟩
      rcases etherPop_eq_some popped with ⟨txdPkt, rest, _, queue, rfl⟩
      apply stepsLeft_of_work
      simp only [work, queue, Option.elim, List.length_cons]
      omega
  | etherXmit =>
      exact stepsLeft_of_work (work_etherXmit (Option.ite_none_right_eq_some.mp taken).2)
  | wait proc =>
      rcases Option.ite_none_right_eq_some.mp taken with ⟨runs, slept⟩
      cases proc with
      | rx => exact stepsLeft_waitqueueWait (.inl rfl) runs slept
      | ip4Tx => exact stepsLeft_waitqueueWait (.inr (.inl rfl)) runs slept
      | etherTx => exact stepsLeft_waitqueueWait (.inr (.inr rfl)) runs slept
      | thread id =>
          rcases waitqueueWait_eq_some slept with ⟨_, _, _, _, rfl⟩
          exact unpaid rfl fun _ member _ => List.mem_cons_of_mem _ member
  | arpTick =>
      cases taken
      exact unpaid rfl fun _ member _ => member
  | getOther size =>
      rcases Option.map_eq_some_iff.mp taken with ⟨⟨block, first⟩, got, rfl⟩
      rw [getMem_eq got] at unpaid ⊢
      exact unpaid rfl fun _ member _ => member
  | freeOther block =>
      rcases Option.ite_none_right_eq_some.mp taken with ⟨_, freed⟩
      cases freed
      exact unpaid rfl fun _ member _ => member
  | setOther tcbHead udpRxRequests =>
      cases taken
      exact unpaid rfl fun _ member _ => member
  | wakeupOther =>
      cases taken
      exact unpaid rfl fun _ member other => List.mem_filter.mpr ⟨member, decide_eq_true other⟩

end Measure

/-! As long as `get_mem` finds the blocks of one step, nothing but the processor's own loop
holds a task up. -/

section Room

variable [DecidableEq B] {mem : Allocator H B} {limit n : Nat}

/-- A block is found, and whether it is freed again or not, there is room for one less. -/
theorem exists_getMem (spares : mem.Spares limit (n + 1) s.heap) (size : Nat) (positive : 0 < size)
    (bound : size ≤ limit) :
    ∃ block after, s.getMem mem size = some (block, after) ∧ mem.Spares limit n after.heap ∧
      mem.Spares limit n (after.freeMem mem block).heap := by
  rcases spares size positive bound with ⟨block, heap, got, kept, freed⟩
  exact ⟨block, { s with heap }, by rw [getMem, got]; rfl, kept, freed⟩

theorem isSome_etherTx (spares : mem.Spares limit 2 s.heap) (room : 32 ≤ limit) {len : Nat}
    (positive : 0 < len) (bound : len ≤ limit) : (s.etherTx mem len).isSome := by
  rcases exists_getMem spares 24 (by decide) (by omega) with
    ⟨newPacket, first, got, spares, _⟩
  rcases exists_getMem spares _ positive bound with ⟨payloadCopy, second, copied, _, _⟩
  simp [etherTx, got, copied]

theorem isSome_ip4XmitPacket (spares : mem.Spares limit 2 s.heap) (room : 32 ≤ limit)
    {dstIp : UInt32} {payloadLen : UInt16} (positive : 0 < payloadLen.toNat)
    (bound : payloadLen.toNat ≤ limit) : (s.ip4XmitPacket mem dstIp payloadLen).isSome := by
  rcases exists_getMem spares 24 (by decide) (by omega) with
    ⟨newPacket, first, got, spares, _⟩
  rcases exists_getMem spares _ positive bound with ⟨payloadCopy, second, copied, _, _⟩
  simp [ip4XmitPacket, got, copied]

theorem isSome_tcpTx (spares : mem.Spares limit 4 s.heap) (room : 32 ≤ limit) (header : TcpHeader)
    (destIp : UInt32) : (s.tcpTx mem ⟨header, destIp, []⟩).isSome := by
  rcases exists_getMem spares (checksumBufSz 0) (by decide) room with
    ⟨sumBuf, first, got, _, spares⟩
  rcases exists_getMem spares 20 (by decide) (by omega) with
    ⟨buf, second, built, spares, _⟩
  have queued : (second.ip4XmitPacket mem destIp 20).isSome :=
    isSome_ip4XmitPacket spares room (by decide) (Nat.le_trans (by decide) room)
  rcases Option.isSome_iff_exists.mp queued with ⟨third, queued⟩
  have length : UInt16.ofNat 20 = 20 := rfl
  simp [tcpTx, got, built, length, queued]

theorem isSome_tcpTxs (spares : mem.Spares limit 4 s.heap) (room : 32 ≤ limit) {sent : List TcpTx}
    (bare : BareAnswer sent) : (s.tcpTxs mem sent).isSome := by
  rcases bare with rfl | ⟨header, destIp, rfl⟩
  · rfl
  · rcases Option.isSome_iff_exists.mp (isSome_tcpTx spares room header destIp) with ⟨first, one⟩
    rw [tcpTxs, one]
    rfl

theorem isSome_arpRxPacket (spares : mem.Spares limit 3 s.heap) (room : 32 ≤ limit)
    (pending : List ArpPendingRequest) (packet : ArpPacket) :
    (s.arpRxPacket mem pending packet).isSome := by
  unfold arpRxPacket
  split
  · split
    · split
      · rcases exists_getMem spares 28 (by decide) (by omega) with
          ⟨resp, first, got, spares, _⟩
        simpa [arpRespond, got] using isSome_etherTx spares room (by decide) (by omega)
      · rfl
    · split
      · split
        · rw [Option.isSome_map, arpFulfil]
          split
          · rcases exists_getMem spares 20 (by decide) (by omega) with
              ⟨newArpEntry, first, got, _⟩
            simp [got]
          · rfl
        · rfl
      · rfl
  · rfl

theorem isSome_rxHandle (spares : mem.Spares limit 4 s.heap) (room : 32 ≤ limit) {pkt : RxPkt B}
    (held : s.rxPkt = some pkt) (goesOn : ¬(s.handed pkt.pkt).handle.stopped = true) :
    (s.rxHandle mem).isSome := by
  simp only [rxHandle, held]
  rw [if_neg goesOn, Option.isSome_map]
  unfold handlerMem
  split
  · have three : mem.Spares limit 3 s.heap := spares.of_le (by decide)
    refine isSome_arpRxPacket ?_ room _ _
    exact three
  · rename_i tcp
    have bare := bareAnswer_handed tcp (Bool.eq_false_iff.mpr goesOn)
    rw [tcpRxPacket, Option.isSome_map]
    refine isSome_tcpTxs ?_ room bare
    exact spares
  · rfl

theorem isSome_ip4DoXmit (spares : mem.Spares limit 3 s.heap) (room : 32 ≤ limit)
    {txPkt : Ip4Entry B} (bound : 20 + txPkt.payloadLen.toNat ≤ limit) :
    (s.ip4DoXmit mem txPkt).isSome := by
  have positive : 0 < 20 + txPkt.payloadLen.toNat := by omega
  rcases exists_getMem spares _ positive bound with ⟨packetBuf, first, got, spares, _⟩
  rcases Option.isSome_iff_exists.mp (isSome_etherTx spares room positive bound) with
    ⟨second, queued⟩
  simp [ip4DoXmit, got, queued]

theorem isSome_ip4Xmit (spares : mem.Spares limit 3 s.heap) (room : 32 ≤ limit)
    {txPkt : Ip4Entry B} (popped : s.txPkt = some (.popped txPkt))
    (bound : 20 + txPkt.payloadLen.toNat ≤ limit) : (s.ip4Xmit mem).isSome := by
  simp only [ip4Xmit, popped]
  split
  · rw [Option.isSome_map]
    exact isSome_ip4DoXmit spares room bound
  · rw [Option.isSome_map]
    rcases exists_getMem spares 28 (by decide) (by omega) with
      ⟨arpRequest, first, got, spares, _⟩
    simp only [sendRequest, got, Option.bind_eq_bind, Option.bind_some]
    refine isSome_etherTx ?_ room (by decide) (by omega)
    exact spares

theorem isSome_ip4Resume (spares : mem.Spares limit 3 s.heap) (room : 32 ≤ limit)
    {txPkt : Ip4Entry B} (resolving : s.txPkt = some (.resolving txPkt))
    (bound : 20 + txPkt.payloadLen.toNat ≤ limit) (finished : s.tables.arpFinished ≠ []) :
    (s.ip4Resume mem).isSome := by
  cases requests : s.tables.arpFinished with
  | nil => exact absurd requests finished
  | cons arpReq arpFinished =>
      simp only [ip4Resume, resolving, requests]
      split
      · rfl
      · rw [Option.isSome_map]
        refine isSome_ip4DoXmit ?_ room bound
        exact spares

theorem isSome_etherXmit (spares : mem.Spares limit 1 s.heap) (room : 32 ≤ limit)
    {txdPkt : EtherEntry B} (held : s.txdPkt = some txdPkt) : (s.etherXmit mem).isSome := by
  rcases exists_getMem spares 14 (by decide) (by omega) with ⟨header, first, got, _⟩
  simp [etherXmit, held, got]

theorem isSome_waitqueueWait (spares : mem.Spares limit 1 s.heap) (room : 32 ≤ limit) {proc : Task}
    {waitq : Waitq} (waits : s.waitsOn proc = some waitq) : (s.waitqueueWait mem proc).isSome := by
  rcases exists_getMem spares 12 (by decide) (by omega) with ⟨block, first, got, _⟩
  simp [waitqueueWait, waits, got]

end Room

section Rest

theorem exists_of_not_runs {proc : Task} (asleep : ¬s.Runs proc) :
    ∃ waitproc ∈ s.waiting, waitproc.proc = proc := by
  by_contra nobody
  exact asleep fun waitproc member same => nobody ⟨waitproc, member, same⟩

variable [DecidableEq B] {mem : Allocator H B}

theorem Served.rx_of_still (served : s.Served)
    (spares : mem.Spares s.largestRequest 4 s.heap)
    (still : ∀ event, 0 < s.effort event → State.step mem s event = none) :
    s.rxPkt = none ∧ s.pktRxQ = [] ∨ s.Halted := by
  by_cases runs : s.Runs .rx
  · cases held : s.rxPkt with
    | none =>
        cases queue : s.pktRxQ with
        | nil => exact .inl ⟨rfl, rfl⟩
        | cons pkt rest =>
            have stuck := still .rxPop Nat.one_pos
            simp [State.step, runs, rxPop, held, queue, listPop] at stuck
    | some pkt =>
        refine .inr ⟨pkt, held, ?_⟩
        by_contra goesOn
        have handled := isSome_rxHandle spares le_largestRequest held goesOn
        have stuck := still .rxHandle Nat.one_pos
        simp [State.step, runs, Option.isSome_iff_ne_none.mp handled] at stuck
  · rcases exists_of_not_runs runs with ⟨waitproc, member, proc⟩
    have rightly := served waitproc member
    rw [WaitsRightly, proc] at rightly
    exact .inl rightly.2

theorem Served.ip4_of_still (served : s.Served)
    (spares : mem.Spares s.largestRequest 4 s.heap)
    (still : ∀ event, 0 < s.effort event → State.step mem s event = none) :
    s.txPkt = none ∧ s.ip4TxQueue = [] ∨ ∃ txPkt, s.Stalled txPkt := by
  by_cases runs : s.Runs .ip4Tx
  · cases held : s.txPkt with
    | none =>
        cases queue : s.ip4TxQueue with
        | nil => exact .inl ⟨rfl, rfl⟩
        | cons txPkt rest =>
            have stuck := still .ip4Pop Nat.one_pos
            simp [State.step, runs, ip4Pop, held, queue, listPop] at stuck
    | some txPkt =>
        exfalso
        have fewer : mem.Spares s.largestRequest 3 s.heap := spares.of_le (by decide)
        cases txPkt with
        | popped txPkt =>
            have sent :=
              isSome_ip4Xmit fewer le_largestRequest held (entry_le_largestRequest held)
            have stuck := still .ip4Xmit Nat.one_pos
            simp [State.step, runs, Option.isSome_iff_ne_none.mp sent] at stuck
        | resolving txPkt =>
            by_cases requests : s.tables.arpFinished = []
            · have waits : s.waitsOn .ip4Tx = some .arp := by simp [waitsOn, held, requests]
              have slept :=
                isSome_waitqueueWait (spares.of_le (by decide)) le_largestRequest waits
              have stuck := still (.wait .ip4Tx) Nat.one_pos
              simp [State.step, runs, Option.isSome_iff_ne_none.mp slept] at stuck
            · have resumed := isSome_ip4Resume fewer le_largestRequest held
                (entry_le_largestRequest held) requests
              have stuck := still .ip4Resume Nat.one_pos
              simp [State.step, runs, Option.isSome_iff_ne_none.mp resumed] at stuck
  · rcases exists_of_not_runs runs with ⟨waitproc, member, proc⟩
    have rightly := served waitproc member
    rw [WaitsRightly, proc] at rightly
    rcases rightly with ⟨_, idle⟩ | ⟨queue, txPkt, resolving⟩
    · exact .inl idle
    · exact .inr ⟨txPkt, resolving, waitproc, member, proc, queue⟩

theorem Served.ether_of_still (served : s.Served)
    (spares : mem.Spares s.largestRequest 4 s.heap)
    (still : ∀ event, 0 < s.effort event → State.step mem s event = none) :
    s.txdPkt = none ∧ s.etherTxQueue = [] := by
  by_cases runs : s.Runs .etherTx
  · cases held : s.txdPkt with
    | none =>
        cases queue : s.etherTxQueue with
        | nil => exact ⟨rfl, rfl⟩
        | cons txdPkt rest =>
            have stuck := still .etherPop Nat.one_pos
            simp [State.step, runs, etherPop, held, queue, listPop] at stuck
    | some txdPkt =>
        have sent := isSome_etherXmit (spares.of_le (by decide)) le_largestRequest held
        have stuck := still .etherXmit Nat.one_pos
        simp [State.step, runs, Option.isSome_iff_ne_none.mp sent] at stuck
  · rcases exists_of_not_runs runs with ⟨waitproc, member, proc⟩
    have rightly := served waitproc member
    rw [WaitsRightly, proc] at rightly
    exact rightly.2

end Rest

end State

/-- From every state that the network code can reach with frames that hold their headers, once
no frame comes in and nobody else transmits, whatever else happens: the three tasks take at
most `stepsLeft` steps in any order.  When they can take none, and the heap that is left has
room for what one step asks for, everything is handled and transmitted, unless a segment has
stopped the processor, or `ip4_tx_task` sleeps in `resolve_address` and everything else is. -/
theorem network_comes_to_rest {H B : Type} [DecidableEq B] {mem : Allocator H B}
    {start s last : State H B} {earlier later : List (NetEvent B)} (awake : start.waiting = [])
    (reached : State.Followed mem start earlier s)
    (quiet : Guarded (State.step mem) State.NoInput s later)
    (continued : State.Followed mem s later last) :
    tally (State.step mem) State.effort s later + last.stepsLeft ≤ s.stepsLeft ∧
      (mem.Spares last.largestRequest 4 last.heap →
        (∀ event, 0 < last.effort event → State.step mem last event = none) → last.AtRest) := by
  have nobody : start.Served := by
    intro waitproc member
    rw [awake] at member
    contradiction
  have served : s.Served :=
    invariant_of_reachable (fun _ _ _ served taken => State.Served.step served taken) nobody
      ⟨earlier, reached.executed⟩
  constructor
  · exact tally_le_of_guarded (fun _ _ _ served quiet taken =>
      ⟨State.Served.step served taken, served.lowers quiet taken⟩) served quiet continued.executed
  · intro spares still
    have servedLast : last.Served :=
      invariant_of_reachable (fun _ _ _ served taken => State.Served.step served taken) served
        ⟨later, continued.executed⟩
    exact ⟨servedLast.rx_of_still spares still, servedLast.ip4_of_still spares still,
      servedLast.ether_of_still spares still⟩

theorem isSome_hostAsked :
    (run (State.step linkedHeap) idle [received arpRequestBytes]).isSome = true := by
  decide +kernel

/-- A host has asked for our address. -/
def hostAsked : State (SoundHeap linkedPlace) Nat :=
  (run (State.step linkedHeap) idle [received arpRequestBytes]).get isSome_hostAsked

/-- It is answered, and the tasks go to sleep. -/
def hostAnswers : List (NetEvent Nat) :=
  [.rxPop, .rxHandle, .arpTick, .rxHandle, .wait .rx, .wait .ip4Tx, .etherPop, .etherXmit,
    .wait .etherTx]

theorem isSome_hostAnswers : (run (State.step linkedHeap) hostAsked hostAnswers).isSome = true := by
  decide +kernel

def hostAsleep : State (SoundHeap linkedPlace) Nat :=
  (run (State.step linkedHeap) hostAsked hostAnswers).get isSome_hostAnswers

/-- No task can take a step. -/
theorem stuck_hostAsleep :
    ∀ event ∈ [.rxPop, .rxHandle, .ip4Pop, .ip4Xmit, .ip4Resume, .etherPop, .etherXmit, .wait .rx,
      .wait .ip4Tx, .wait .etherTx], (State.step linkedHeap hostAsleep event).isNone := by
  decide +kernel

theorem still_hostAsleep (event : NetEvent Nat) (task : 0 < hostAsleep.effort event) :
    State.step linkedHeap hostAsleep event = none := by
  apply Option.isNone_iff_eq_none.mp
  apply stuck_hostAsleep
  cases event with
  | rxPop | rxHandle | ip4Pop | ip4Xmit | ip4Resume | etherPop | etherXmit => simp
  | wait proc =>
      cases proc with
      | rx | ip4Tx | etherTx => simp
      | thread id => exact absurd task (Nat.lt_irrefl 0)
  | _ => exact absurd task (Nat.lt_irrefl 0)

/-- The heap that is left has room for four requests of 32 bytes. -/
theorem spares_hostAsleep :
    linkedHeap.Spares hostAsleep.largestRequest 4 hostAsleep.heap := by
  have room : hostAsleep.largestRequest = 32 ∧
      linkedPlace.HasFree hostAsleep.heap.state.memory (4 * Heap.blockSize 32) := by
    decide +kernel
  rw [room.1]
  exact SoundHeap.spares_of_hasFree (by decide) room.2

theorem network_comes_to_rest_example :
    run (State.step linkedHeap) hostAsked hostAnswers = some hostAsleep ∧
      tally (State.step linkedHeap) State.effort hostAsked hostAnswers + hostAsleep.stepsLeft ≤
        hostAsked.stepsLeft ∧
      hostAsleep.AtRest := by
  have reached : State.Followed linkedHeap idle [received arpRequestBytes] hostAsked :=
    ⟨(Option.some_get isSome_hostAsked).symm, by decide +kernel⟩
  have continued : State.Followed linkedHeap hostAsked hostAnswers hostAsleep :=
    ⟨(Option.some_get isSome_hostAnswers).symm, by decide +kernel⟩
  rcases network_comes_to_rest rfl reached (by decide +kernel) continued with ⟨bounded, rests⟩
  exact ⟨continued.executed, bounded, rests spares_hostAsleep still_hostAsleep⟩

end Lpc17xx.Net
