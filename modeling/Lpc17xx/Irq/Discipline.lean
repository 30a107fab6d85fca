import Lpc17xx.Heap.Allocator
import Lpc17xx.Irq.Core

/-!
# What becomes of the interrupt mask

All functions that mask interrupts put the mask back, but for two returns from inside
a masked search: `resolve_address` when the address is in the table, and `udp_rx`
when its port is in use.
-/

namespace Lpc17xx.Irq

open Lpc17xx.Arp
open Lpc17xx.Heap (SoundHeap linkedHeap)
open Lpc17xx.Heap.HeapState (linkedPlace)
open Lpc17xx.Interrupt
open Lpc17xx.Memory
open Lpc17xx.Process
open Lpc17xx.Protocol
open Lpc17xx.Transition

/-- A call of one of the functions that mask interrupts. -/
inductive Call (B : Type) where
  | resolveAddress (ipAddress : UInt32) (arpPReq : Nat) (block : Bytes)
  | arpTick
  | arpRxPacket (packet : ArpPacket) (block : Bytes)
  | udpRx (port dstBufSz : UInt16) (newListener : Nat)
  | udpRxPacket (dstPort : UInt16) (udpPayload : List UInt8)
  | etherTx (dhost : List UInt8) (etherType : UInt16) (payload : List UInt8)
  | ip4XmitPacket (protocol : UInt8) (dstIp : UInt32) (payload : List UInt8)
  | packetInject (pkt : Packet) (type : ProtocolType)
  | waitqueueWakeup (waitq : Waitq)
  | processWakeup (proc : Task)
  | processSpawn (stack : Nat)
  | pickNewTask (currentStack : Option Nat)
  | getMem (size : Nat)
  | freeMem (ptr : Option B)

section Discipline

variable {H B : Type}

theorem steady_processWakeup (proc : Task) :
    (processWakeup proc : Routine (Kernel H B) Unit).Respects Steady := by
  apply respects_disable
  intro origin
  exact .bind (steady_store _) fun _ => .last fun _ _ => id

theorem steady_pickNewTask (currentStack : Option Nat) :
    (pickNewTask currentStack : Routine (Kernel H B) (Option Nat)).Respects Steady := by
  apply respects_disable
  intro origin
  refine .bind (steady_load _) fun current => ?_
  apply Within.ite
  · exact .never
  · exact .bind (steady_access _) fun stack => .restore (fun _ _ => id) fun _ => .pure stack

theorem steady_arpTick : (arpTick : Routine (Kernel H B) Unit).Respects Steady := by
  apply respects_disable
  intro origin
  refine .bind (steady_load _) fun pending => ?_
  exact .bind (.forM pending fun _ => steady_store _) fun _ => .last fun _ _ => id

theorem slept_processWait :
    (processWait : Routine (Kernel H B) Unit).Respects
      fun _ after => after.slept = true ∧ after.masked = false := by
  intro cpu result after returned
  rcases Code.bind_eq_some.mp returned with ⟨_, masked, _, linking⟩
  rcases Code.bind_eq_some.mp linking with ⟨_, linked, _, sleeping⟩
  exact slept_sleep linked result after sleeping

variable [DecidableEq B] (mem : Allocator H B)

theorem steady_takeBlock (size : Nat) :
    (takeBlock mem size : Routine (Kernel H B) B).Respects Steady := by
  intro cpu block after returned
  rcases Option.map_eq_some_iff.mp returned with ⟨taken, _, outcome⟩
  cases outcome
  exact ⟨rfl, rfl⟩

theorem steady_getMem (size : Nat) :
    (getMem mem size : Routine (Kernel H B) (Option B)).Respects Steady := by
  apply Code.Respects.ite
  · exact .pure none
  · apply respects_disable
    intro origin
    refine .bind (steady_takeBlock mem size) fun block => ?_
    exact .restore (fun _ _ => id) fun _ => .pure (some block)

theorem steady_freeMem (ptr : Option B) :
    (freeMem mem ptr : Routine (Kernel H B) Unit).Respects Steady := by
  cases ptr with
  | none => exact .pure ()
  | some block =>
      apply respects_disable
      intro origin
      exact .bind (steady_store _) fun _ => .last fun _ _ => id

theorem steady_waitqueueWakeup (waitq : Waitq) :
    (waitqueueWakeup mem waitq : Routine (Kernel H B) Unit).Respects Steady := by
  have round (waitproc : WaitingProc B) :
      (wakeWaiting mem waitq waitproc : Routine (Kernel H B) Unit).Respects Steady :=
    .bind (steady_processWakeup _) fun _ => .bind (steady_store _) fun _ => steady_freeMem mem _
  apply respects_disable
  intro origin
  refine .bind (steady_load _) fun waiting => ?_
  exact .bind (.forM waiting round) fun _ => .last fun _ _ => id

theorem slept_waitqueueWait (waitq : Waitq) :
    (waitqueueWait mem waitq : Routine (Kernel H B) Unit).Respects
      fun _ after => after.slept = true ∧ after.masked = false := by
  intro cpu result after returned
  rcases Code.bind_eq_some.mp returned with ⟨_, allocated, _, linking⟩
  rcases Code.bind_eq_some.mp linking with ⟨_, linked, _, waiting⟩
  exact slept_processWait linked result after waiting

/-- A wait, by induction on how often the process sleeps in it. -/
theorem balanced_waitForVolatileCondition (condition : Kernel H B → Bool) (waitq : Waitq)
    (sleeps : Nat) :
    (waitForVolatileCondition mem condition waitq sleeps).Respects Balanced := by
  induction sleeps with
  | zero => exact .never
  | succ sleeps ih =>
      apply respects_disable
      intro origin
      refine .bind (steady_load _) fun holds => ?_
      apply Within.ite
      · exact .last fun _ _ => .inl
      · exact .slept (slept_waitqueueWait mem waitq) fun _ => ih

theorem steady_processSpawn (stack : Nat) :
    (processSpawn mem stack : Routine (Kernel H B) Unit).Respects Steady := by
  refine .bind (steady_getMem mem _) fun _ => .bind (steady_getMem mem _) fun _ => ?_
  apply respects_disable
  intro origin
  exact .bind (steady_store _) fun _ => .last fun _ _ => id

/-- An insertion into one of the transmit queues. -/
theorem steady_enqueue (size : Nat) (write : Kernel H B → Kernel H B) (waitq : Waitq) :
    Code.Respects Steady (do
      let _newPacket ← getMem mem 24
      let _payloadCopy ← getMem mem size
      let flags ← irqDisable
      store write
      irqEnable flags
      waitqueueWakeup mem waitq) := by
  refine .bind (steady_getMem mem _) fun _ => .bind (steady_getMem mem _) fun _ => ?_
  apply respects_disable
  intro origin
  refine .bind (steady_store _) fun _ => .restore (fun _ _ => id) fun _ => ?_
  exact steady_waitqueueWakeup mem waitq

theorem steady_etherTx (dhost : List UInt8) (etherType : UInt16) (payload : List UInt8) :
    (etherTx mem dhost etherType payload : Routine (Kernel H B) Unit).Respects Steady :=
  steady_enqueue mem _ _ _

theorem steady_ip4XmitPacket (protocol : UInt8) (dstIp : UInt32) (payload : List UInt8) :
    (ip4XmitPacket mem protocol dstIp payload : Routine (Kernel H B) Unit).Respects Steady :=
  steady_enqueue mem _ _ _

theorem steady_packetInject (pkt : Packet) (type : ProtocolType) :
    (packetInject mem pkt type : Routine (Kernel H B) Unit).Respects Steady := by
  apply respects_disable
  intro origin
  refine .bind (steady_store _) fun _ => ?_
  exact .bind (steady_waitqueueWakeup mem _) fun _ => .last fun _ _ => id

theorem steady_arpFulfil (packet : ArpPacket) (requests : List Nat) :
    (arpFulfil mem packet requests : Routine (Kernel H B) Unit).Respects Steady := by
  induction requests with
  | nil => exact .pure ()
  | cons arpReq requests ih =>
      refine .bind (steady_load _) fun request => ?_
      apply Code.Respects.ite
      · exact .bind (steady_getMem mem _) fun _ => steady_store _
      · exact ih

theorem steady_arpRxPacket (packet : ArpPacket) (block : Bytes) :
    (arpRxPacket mem packet block : Routine (Kernel H B) Unit).Respects Steady := by
  have request : (arpRequest mem packet block : Routine (Kernel H B) Unit).Respects Steady :=
    .ite (.bind (steady_getMem mem _) fun _ => steady_etherTx mem _ _ _) (.pure ())
  have replied : (arpReplied mem packet : Routine (Kernel H B) Unit).Respects Steady := by
    apply Code.Respects.ite
    · apply respects_disable
      intro origin
      refine .bind (steady_load _) fun pending => ?_
      refine .bind (steady_arpFulfil mem packet pending) fun _ => ?_
      exact .bind (steady_waitqueueWakeup mem _) fun _ => .last fun _ _ => id
    · exact .pure ()
  exact .ite (.ite request (.ite replied (.pure ()))) (.pure ())

theorem steady_udpRxPacket (dstPort : UInt16) (udpPayload : List UInt8) :
    (udpRxPacket mem dstPort udpPayload : Routine (Kernel H B) Unit).Respects Steady := by
  have round (i : Nat) :
      (udpCopy mem dstPort udpPayload i : Routine (Kernel H B) Unit).Respects Steady := by
    refine .bind (steady_load _) fun listener => ?_
    apply Code.Respects.ite
    · exact .bind (steady_store _) fun _ => steady_waitqueueWakeup mem _
    · exact .pure ()
  apply respects_disable
  intro origin
  refine .bind (steady_load _) fun listeners => ?_
  exact .bind (.forM listeners round) fun _ => .last fun _ _ => id

theorem balanced_sendRequest (ipAddress : UInt32) (arpPReq : Nat) (block : Bytes) (sleeps : Nat) :
    (sendRequest mem ipAddress arpPReq block sleeps).Respects
      (@Balanced (Kernel H B)) := by
  refine .bind (balanced_of_steady (steady_getMem mem _)) fun _ => ?_
  apply respects_disable
  intro origin
  refine .bind (steady_store _) fun _ => .restore (fun _ _ => .inl) fun _ => ?_
  refine .bind (balanced_of_steady (steady_etherTx mem _ _ _)) fun _ => ?_
  refine .bind (balanced_waitForVolatileCondition mem _ _ sleeps) fun _ => ?_
  exact balanced_of_steady (steady_load _)

theorem balanced_udpWait (newListener sleeps : Nat) :
    (udpWait mem newListener sleeps).Respects (@Balanced (Kernel H B)) := by
  refine .bind (balanced_waitForVolatileCondition mem _ _ sleeps) fun _ => ?_
  apply respects_disable
  intro origin
  refine .bind (steady_store _) fun _ => .restore (fun _ _ => .inl) fun _ => ?_
  exact balanced_of_steady (steady_load _)

end Discipline

section Exact

variable {H B : Type} [DecidableEq B] (mem : Allocator H B)

/-- A call without its result. -/
def Call.exec (sleeps : Nat) : Call B → Routine (Kernel H B) Unit
  | .resolveAddress ipAddress arpPReq block => do
      let _hwAddr ← Irq.resolveAddress mem ipAddress arpPReq block sleeps
      pure ()
  | .arpTick => Irq.arpTick
  | .arpRxPacket packet block => Irq.arpRxPacket mem packet block
  | .udpRx port dstBufSz newListener => do
      let _received ← Irq.udpRx mem port dstBufSz newListener sleeps
      pure ()
  | .udpRxPacket dstPort udpPayload => Irq.udpRxPacket mem dstPort udpPayload
  | .etherTx dhost etherType payload => Irq.etherTx mem dhost etherType payload
  | .ip4XmitPacket protocol dstIp payload => Irq.ip4XmitPacket mem protocol dstIp payload
  | .packetInject pkt type => Irq.packetInject mem pkt type
  | .waitqueueWakeup waitq => Irq.waitqueueWakeup mem waitq
  | .processWakeup proc => Irq.processWakeup proc
  | .processSpawn stack => Irq.processSpawn mem stack
  | .pickNewTask currentStack => do
      let _stack ← Irq.pickNewTask currentStack
      pure ()
  | .getMem size => do
      let _ptr ← Irq.getMem mem size
      pure ()
  | .freeMem ptr => Irq.freeMem mem ptr

/-- The call returns out of a search with interrupts masked: the address is in the table,
or the port in use. -/
def Call.FindsEntry (kernel : Kernel H B) : Call B → Prop
  | .resolveAddress ipAddress _ _ => ∃ cur ∈ kernel.arpTable, cur.ipaddr = ipAddress
  | .udpRx port _ _ => ∃ i ∈ kernel.udpRxRequests, (kernel.listener i).port = port
  | _ => False

/-- Whenever the call returns, interrupts are enabled if they were before; and if it has
not slept, the mask is as it was. -/
def Call.Disciplined (call : Call B) (cpu : Processor (Kernel H B)) : Prop :=
  ∀ sleeps after, call.exec mem sleeps cpu = some ((), after) →
    (cpu.masked = false → after.masked = false) ∧
      (after.slept = cpu.slept → after.masked = cpu.masked)

variable {mem}

/-- The search of `resolve_address`. -/
theorem resolveAddress_eq (ipAddress : UInt32) (arpPReq : Nat) (block : Bytes) (sleeps : Nat)
    (cpu : Processor (Kernel H B)) :
    resolveAddress mem ipAddress arpPReq block sleeps cpu =
      match cpu.memory.arpTable.find? fun cur : ArpEntry => cur.ipaddr = ipAddress with
      | some cur => some (some cur.etherAddr, { cpu with masked := true })
      | none => (irqEnable cpu.masked >>= fun _ =>
          sendRequest mem ipAddress arpPReq block sleeps) { cpu with masked := true } := by
  change (match cpu.memory.arpTable.find? fun cur : ArpEntry => cur.ipaddr = ipAddress with
    | some cur => (pure (some cur.etherAddr) : Routine (Kernel H B) (Option (List UInt8)))
    | none => irqEnable cpu.masked >>= fun _ =>
        sendRequest mem ipAddress arpPReq block sleeps) { cpu with masked := true } = _
  cases cpu.memory.arpTable.find? fun cur : ArpEntry => cur.ipaddr = ipAddress with
  | some cur => rfl
  | none => rfl

/-- The search of `udp_rx`. -/
theorem udpRx_eq (port dstBufSz : UInt16) (newListener sleeps : Nat)
    (cpu : Processor (Kernel H B)) :
    udpRx mem port dstBufSz newListener sleeps cpu =
      if (cpu.memory.udpRxRequests.map cpu.memory.listener).any fun i => i.port = port then
        some (-eInUse, { cpu with masked := true })
      else
        (store (Kernel.listen port dstBufSz newListener) >>= fun _ =>
          irqEnable cpu.masked >>= fun _ => udpWait mem newListener sleeps)
            { cpu with masked := true } := by
  unfold udpRx
  split
  · rename_i inUse
    exact congrFun (if_pos inUse) _
  · rename_i free
    exact congrFun (if_neg free) _

/-- A call that finds no entry. -/
theorem balanced_exec {call : Call B} {sleeps : Nat} {cpu after : Processor (Kernel H B)}
    (misses : ¬call.FindsEntry cpu.memory)
    (returned : call.exec mem sleeps cpu = some ((), after)) : Balanced cpu after := by
  have steady {code : Routine (Kernel H B) Unit} (steady : code.Respects Steady)
      (ran : code cpu = some ((), after)) : Balanced cpu after :=
    .inl (steady cpu () after ran)
  have dropped {α : Type} {code : Routine (Kernel H B) α} (steady : code.Respects Steady)
      (ran : (code >>= fun _ => pure ()) cpu = some ((), after)) : Balanced cpu after :=
    .inl (Code.Respects.bind steady (fun _ => .pure ()) cpu () after ran)
  cases call with
  | resolveAddress ipAddress arpPReq block =>
      rcases Code.bind_eq_some.mp returned with ⟨hwAddr, middle, resolved, ended⟩
      cases ended
      rw [resolveAddress_eq] at resolved
      split at resolved
      · rename_i cur found
        have entry := List.find?_some found
        exact absurd ⟨cur, List.mem_of_find?_eq_some found, by simpa using entry⟩ misses
      · exact Within.restore (fun _ _ => .inl)
          (fun _ => balanced_sendRequest mem ipAddress arpPReq block sleeps)
          { cpu with masked := true } _ _ rfl rfl resolved
  | udpRx port dstBufSz newListener =>
      rcases Code.bind_eq_some.mp returned with ⟨received, middle, ran, ended⟩
      cases ended
      rw [udpRx_eq] at ran
      split at ran
      · rename_i inUse
        simp only [List.any_map, List.any_eq_true, Function.comp, decide_eq_true_eq] at inUse
        exact absurd inUse misses
      · exact Within.bind (steady_store _) (fun _ => .restore (fun _ _ => .inl)
          fun _ => balanced_udpWait mem newListener sleeps)
          { cpu with masked := true } _ _ rfl rfl ran
  | arpTick => exact steady steady_arpTick returned
  | arpRxPacket packet block => exact steady (steady_arpRxPacket mem packet block) returned
  | udpRxPacket dstPort udpPayload =>
      exact steady (steady_udpRxPacket mem dstPort udpPayload) returned
  | etherTx dhost etherType payload =>
      exact steady (steady_etherTx mem dhost etherType payload) returned
  | ip4XmitPacket protocol dstIp payload =>
      exact steady (steady_ip4XmitPacket mem protocol dstIp payload) returned
  | packetInject pkt type => exact steady (steady_packetInject mem pkt type) returned
  | waitqueueWakeup waitq => exact steady (steady_waitqueueWakeup mem waitq) returned
  | processWakeup proc => exact steady (steady_processWakeup proc) returned
  | processSpawn stack => exact steady (steady_processSpawn mem stack) returned
  | pickNewTask currentStack => exact dropped (steady_pickNewTask currentStack) returned
  | getMem size => exact dropped (steady_getMem mem size) returned
  | freeMem ptr => exact steady (steady_freeMem mem ptr) returned

/-- A call that finds an entry returns with interrupts masked. -/
theorem exec_of_findsEntry (mem : Allocator H B) {call : Call B}
    (cpu : Processor (Kernel H B)) (sleeps : Nat) (finds : call.FindsEntry cpu.memory) :
    call.exec mem sleeps cpu = some ((), { cpu with masked := true }) := by
  cases call with
  | resolveAddress ipAddress arpPReq block =>
      rcases finds with ⟨cur, member, same⟩
      have found : ((cpu.memory.arpTable.find? fun cur => cur.ipaddr = ipAddress)).isSome := by
        rw [List.find?_isSome]
        exact ⟨cur, member, by simpa using same⟩
      rcases Option.isSome_iff_exists.mp found with ⟨entry, hit⟩
      refine Code.bind_eq_some.mpr ⟨some entry.etherAddr, { cpu with masked := true }, ?_, rfl⟩
      rw [resolveAddress_eq, hit]
  | udpRx port dstBufSz newListener =>
      refine Code.bind_eq_some.mpr ⟨-eInUse, { cpu with masked := true }, ?_, rfl⟩
      rw [udpRx_eq, if_pos]
      simpa [Call.FindsEntry] using finds
  | arpTick => cases finds
  | arpRxPacket packet block => cases finds
  | udpRxPacket dstPort udpPayload => cases finds
  | etherTx dhost etherType payload => cases finds
  | ip4XmitPacket protocol dstIp payload => cases finds
  | packetInject pkt type => cases finds
  | waitqueueWakeup waitq => cases finds
  | processWakeup proc => cases finds
  | processSpawn stack => cases finds
  | pickNewTask currentStack => cases finds
  | getMem size => cases finds
  | freeMem ptr => cases finds

end Exact

/-- In every state of the lists, with any allocator, and whatever interrupts and other
processes do meanwhile: a call keeps the discipline exactly if it is made with
interrupts masked or finds no entry. -/
theorem irq_disciplined_iff {H B : Type} [DecidableEq B] (mem : Allocator H B) (call : Call B)
    (kernel : Kernel H B) (masked : Bool) (others : List (Kernel H B → Kernel H B)) :
    call.Disciplined mem (.enter kernel masked others) ↔
      (masked = true ∨ ¬call.FindsEntry kernel) := by
  constructor
  · intro disciplined
    by_contra caught
    rcases not_or.mp caught with ⟨unmasked, finds⟩
    have enabled : masked = false := eq_false_of_ne_true unmasked
    have returned := exec_of_findsEntry mem (.enter kernel masked others) 0 (not_not.mp finds)
    exact absurd ((disciplined 0 _ returned).1 enabled) Bool.false_ne_true.symm
  · intro admitted sleeps after returned
    by_cases finds : call.FindsEntry kernel
    · have entered : masked = true := admitted.resolve_right (not_not.mpr finds)
      have ended := exec_of_findsEntry mem (.enter kernel masked others) sleeps finds
      cases ended.symm.trans returned
      exact ⟨fun enabled => absurd (enabled.symm.trans entered) (by decide), fun _ => entered.symm⟩
    · rcases balanced_exec finds returned with ⟨mask, _⟩ | ⟨slept, unmasked⟩
      · exact ⟨fun enabled => mask.trans enabled, fun _ => mask⟩
      · refine ⟨fun _ => unmasked, ?_⟩
        intro awake
        exact absurd (slept.symm.trans awake) Bool.false_ne_true.symm

/-- A kernel that has resolved the gateway and does nothing else. -/
def gatewayResolved : Kernel (SoundHeap linkedPlace) Nat where
  heap := .start linkedPlace fun _ => 0
  arpTable := [⟨[2, 0, 0, 0, 0, 1], Queue.ipGateway⟩]
  arpPending := []
  request := fun _ => pendingRequest 0
  udpRxRequests := []
  listener := fun _ => ⟨[], 0, 0, 0⟩
  pktRxQ := []
  ip4TxQueue := []
  etherTxQueue := []
  waiting := fun _ => []
  runqueue := []
  waitqueue := []
  deadqueue := []
  procState := fun _ => .running
  curStack := fun _ => none
  currentTsk := some (.proc 0)
  spawned := 1

/-- Resolving the gateway again leaves interrupts masked. -/
theorem irq_not_disciplined_gateway :
    ¬(Call.resolveAddress Queue.ipGateway 0 fun _ => 0).Disciplined linkedHeap
      (.enter gatewayResolved false []) := by
  intro disciplined
  have finds : Call.FindsEntry gatewayResolved (.resolveAddress Queue.ipGateway 0 fun _ => 0) :=
    ⟨_, List.mem_singleton_self _, rfl⟩
  have returned := exec_of_findsEntry linkedHeap (.enter gatewayResolved false []) 0 finds
  exact absurd ((disciplined 0 _ returned).1 rfl) Bool.false_ne_true.symm

end Lpc17xx.Irq
