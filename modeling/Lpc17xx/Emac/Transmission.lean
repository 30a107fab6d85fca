import Lpc17xx.Emac.TransmitFrame

/-!
# Every frame leaves as it was queued

While `ether_tx_task` spins in `emac_xmit_frame`, all that the controller fetches lies in
the header and the payload that the task holds, so nobody changes it.  The frames on the
wire are those that the model of the queues transmits, up to the bytes that the
descriptors ask for, and every frame that is queued gets there.
-/

namespace Lpc17xx.Emac

open Lpc17xx.Cbuf
open Lpc17xx.Link
open Lpc17xx.Memory
open Lpc17xx.Queue
open Lpc17xx.Transition

namespace Transmitter

/-- The entries that the task has in hand or still has to pop. -/
def packets (s : Transmitter) : List TxdPkt :=
  s.xmit.toList.map Xmit.txdPkt ++ s.etherTxQueue

/-- The blocks of the header and of the entries. -/
def blocks (s : Transmitter) : List (Nat × Nat) :=
  s.xmit.toList.map Xmit.headerBlock ++ s.packets.flatMap TxdPkt.blocks

/-- The controller has nothing to do. -/
def Quiet (s : Transmitter) : Prop :=
  s.txConsumeIndex = s.txProduceIndex ∧ s.offset = 0 ∧ s.frame = []

/-- The controller is in the frame whose header has the descriptor `first`: in the
header, or in the payload. -/
def Sending (s : Transmitter) (xmit : Xmit) (first : Fin descLen) : Prop :=
  (s.txConsumeIndex = first ∧ s.txDesc first = xmit.headerDesc ∧
    s.txDesc (first + 1) = xmit.payloadDesc ∧ s.offset < 14 ∧
    s.frame = (xmit.frameIn s.memory).take s.offset) ∨
  (s.txConsumeIndex = first + 1 ∧ s.txDesc (first + 1) = xmit.payloadDesc ∧
    s.offset < xmitLen xmit.txdPkt.payloadLen.toNat ∧
    s.frame = (xmit.frameIn s.memory).take (14 + s.offset))

/-- What each statement of `emac_xmit_frame` finds. -/
def InStage (s : Transmitter) (xmit : Xmit) : Prop :=
  let header := s.txDesc s.txProduceIndex
  let payload := s.txDesc (s.txProduceIndex + 1)
  match xmit.stage with
  | .headerPacket => s.Quiet
  | .headerControl => s.Quiet ∧ header.packet = xmit.header
  | .payloadPacket => s.Quiet ∧ header = xmit.headerDesc
  | .payloadControl =>
      s.Quiet ∧ header = xmit.headerDesc ∧ payload.packet = xmit.txdPkt.payload
  | .payloadLast =>
      s.Quiet ∧ header = xmit.headerDesc ∧
        payload = ⟨xmit.txdPkt.payload, xmit.txdPkt.payloadLen.toUInt32 - (1 : UInt32)⟩
  | .produceIndex => s.Quiet ∧ header = xmit.headerDesc ∧ payload = xmit.payloadDesc
  | .wait => s.Quiet ∨ ∃ first, s.txProduceIndex = first + 1 + 1 ∧ s.Sending xmit first

/-- What holds between any two events.  The blocks held are those of the header and of the
entries, and no two of them overlap. -/
structure Sound (s : Transmitter) : Prop where
  whole : ∀ txdPkt ∈ s.packets, txdPkt.dhost.length = 6 ∧ 0 < txdPkt.payloadLen.toNat
  held : s.held.Perm s.blocks
  apart : s.held.Pairwise Apart
  idle : s.xmit = none → s.Quiet
  busy : ∀ xmit, s.xmit = some xmit → xmit.Built s.memory ∧ s.InStage xmit

/-- The entry in hand, until its frame has been sent. -/
def unsent (s : Transmitter) : Option TxdPkt :=
  s.xmit.bind fun xmit =>
    if xmit.stage = .wait ∧ s.txConsumeIndex = s.txProduceIndex then none else some xmit.txdPkt

/-- An entry of the queue, for the model of the queues. -/
def entryIn (memory : Bytes) (txdPkt : TxdPkt) : EtherEntry :=
  ⟨none, txdPkt.packetIn memory⟩

/-- The state of the queues that the transmitter is in. -/
structure Represents (s : Transmitter) (queues : Queues) : Prop where
  queue : queues.etherTxQueue = s.etherTxQueue.map (entryIn s.memory)
  hand : queues.txdPkt = s.unsent.map (entryIn s.memory)
  wire : s.wire = queues.transmitted.map fun sent => onWire sent.2
  nonempty : ∀ sent ∈ queues.transmitted, 14 < sent.2.length

/-! ## Changes of memory -/

section Frame

variable {s : Transmitter} {queues : Queues} {memory : Bytes}

/-- Memory is left alone where it is held. -/
def Keeps (s : Transmitter) (memory : Bytes) : Prop :=
  ∀ block ∈ s.blocks, Same s.memory memory block

theorem Keeps.packet (keeps : s.Keeps memory) {txdPkt : TxdPkt} (member : txdPkt ∈ s.packets) :
    txdPkt.packetIn memory = txdPkt.packetIn s.memory :=
  TxdPkt.packetIn_congr (keeps _ (List.mem_append_right _
    (List.mem_flatMap.mpr ⟨txdPkt, member, List.mem_cons_self⟩)))

theorem Keeps.queued (keeps : s.Keeps memory) {txdPkt : TxdPkt}
    (queued : txdPkt ∈ s.etherTxQueue) : txdPkt.packetIn memory = txdPkt.packetIn s.memory :=
  keeps.packet (List.mem_append_right _ queued)

theorem Keeps.inHand (keeps : s.Keeps memory) {xmit : Xmit} (here : s.xmit = some xmit) :
    xmit.txdPkt.packetIn memory = xmit.txdPkt.packetIn s.memory :=
  keeps.packet (List.mem_append_left _ (by simp [here]))

theorem Keeps.header (keeps : s.Keeps memory) {xmit : Xmit} (here : s.xmit = some xmit) :
    Same s.memory memory xmit.headerBlock :=
  keeps _ (List.mem_append_left _ (by simp [here]))

theorem InStage.frame {xmit : Xmit} (stage : s.InStage xmit)
    (same : xmit.txdPkt.packetIn memory = xmit.txdPkt.packetIn s.memory) :
    ({ s with memory } : Transmitter).InStage xmit := by
  have frame : xmit.frameIn memory = xmit.frameIn s.memory := by
    rw [Xmit.frameIn, same, Xmit.frameIn]
  rcases xmit with ⟨txdPkt, header, statement⟩
  cases statement with
  | wait =>
      rcases stage with quiet | ⟨first, produced, sending⟩
      · exact .inl quiet
      · refine .inr ⟨first, produced, ?_⟩
        rcases sending with ⟨here, headerDesc, payloadDesc, bound, sent⟩ |
          ⟨here, payloadDesc, bound, sent⟩
        · exact .inl ⟨here, headerDesc, payloadDesc, bound, sent.trans (by rw [← frame])⟩
        · exact .inr ⟨here, payloadDesc, bound, sent.trans (by rw [← frame])⟩
  | _ => exact stage

/-- The frame rule: what others do to memory of their own is not seen. -/
theorem Sound.frame (sound : s.Sound) (keeps : s.Keeps memory) :
    ({ s with memory } : Transmitter).Sound := by
  refine ⟨sound.whole, sound.held, sound.apart, sound.idle, fun xmit here => ?_⟩
  rcases sound.busy xmit here with ⟨built, stage⟩
  exact ⟨built.congr (keeps.header here), stage.frame (keeps.inHand here)⟩

theorem Represents.frame (represents : s.Represents queues) (keeps : s.Keeps memory) :
    ({ s with memory } : Transmitter).Represents queues := by
  refine ⟨?_, ?_, represents.wire, represents.nonempty⟩
  · rw [represents.queue]
    apply List.map_congr_left
    intro txdPkt queued
    rw [entryIn, entryIn, keeps.queued queued]
  · rw [represents.hand]
    change s.unsent.map (entryIn s.memory) = s.unsent.map (entryIn memory)
    cases unsent : s.unsent with
    | none => rfl
    | some txdPkt =>
        have inHand : txdPkt.packetIn memory = txdPkt.packetIn s.memory := by
          obtain ⟨xmit, here, kept⟩ := Option.bind_eq_some_iff.mp unsent
          split at kept
          · cases kept
          · cases kept
            exact keeps.inHand here
        rw [Option.map_some, Option.map_some, entryIn, entryIn, inHand]

end Frame

/-! ## The queue -/

section Queued

variable {s target : Transmitter} {queues : Queues} {request : EtherRequest}
  {newPacket payloadCopy header : Nat}

theorem getMem_eq_some {block : Nat × Nat} (got : s.getMem block = some target) :
    (∀ held ∈ s.held, Apart block held) ∧ target = { s with held := block :: s.held } := by
  obtain ⟨apart, ⟨⟩⟩ := Option.ite_none_right_eq_some.mp got
  exact ⟨apart, rfl⟩

theorem step_etherTx (stepped : step s (.etherTx request newPacket payloadCopy) = some target) :
    (∀ block ∈ s.held, Apart (newPacket, 24) block) ∧
      (∀ block ∈ (newPacket, 24) :: s.held, Apart (payloadCopy, request.payload.length) block) ∧
      target = ({ s with
        held := (payloadCopy, request.payload.length) :: (newPacket, 24) :: s.held } :
          Transmitter).etherTx request newPacket payloadCopy := by
  obtain ⟨first, got, stepped⟩ := Option.bind_eq_some_iff.mp stepped
  obtain ⟨apart, rfl⟩ := getMem_eq_some got
  obtain ⟨second, copied, ⟨⟩⟩ := Option.bind_eq_some_iff.mp stepped
  obtain ⟨apart', rfl⟩ := getMem_eq_some copied
  exact ⟨apart, apart', rfl⟩

theorem step_pop (stepped : step s (.pop header) = some target) :
    (∀ block ∈ s.held, Apart (header, 14) block) ∧
      ∃ txdPkt rest, s.xmit = none ∧ s.etherTxQueue = txdPkt :: rest ∧
        target = { s with
          memory := headerBuilt s.memory header txdPkt
          held := (header, 14) :: s.held
          etherTxQueue := rest
          xmit := some { txdPkt, header, stage := .headerPacket } } := by
  obtain ⟨first, got, popped⟩ := Option.bind_eq_some_iff.mp stepped
  obtain ⟨apart, rfl⟩ := getMem_eq_some got
  unfold pop at popped
  split at popped
  · rename_i idle
    split at popped
    · cases popped
    · rename_i txdPkt rest queue
      cases popped
      exact ⟨apart, txdPkt, rest, Option.isNone_iff_eq_none.mp idle, eq_cons_of_listPop queue, rfl⟩
  · cases popped

/-- `payload_len` holds the length of what can be allocated. -/
theorem toNat_payloadLen (request : EtherRequest) :
    (UInt16.ofNat request.payload.length).toNat = request.payload.length := by
  have fits := request.fits
  unfold Lpc17xx.Tcp.memHeapSize at fits
  exact UInt16.toNat_ofNat_of_lt' (by rw [UInt16.size]; omega)

theorem keeps_storeBytes {address : Nat} {bytes : List UInt8}
    (apart : ∀ block ∈ s.blocks, Apart (address, bytes.length) block) :
    s.Keeps (storeBytes s.memory address bytes) := by
  intro block member i bound
  rcases apart block member with before | behind
  · exact storeBytes_of_outside (.inr (by omega))
  · exact storeBytes_of_outside (.inl (by omega))

theorem keeps_update {address : Nat} (outside : Outside s.blocks address) (byte : UInt8) :
    s.Keeps (Function.update s.memory address byte) := by
  intro block member i bound
  refine Function.update_of_ne ?_ _ _
  rcases outside block member with before | behind <;> omega

theorem keeps_headerBuilt {header : Nat} {txdPkt : TxdPkt} (addressed : txdPkt.dhost.length = 6)
    (apart : ∀ block ∈ s.blocks, Apart (header, 14) block) :
    s.Keeps (headerBuilt s.memory header txdPkt) := by
  intro block member i bound
  rcases apart block member with before | behind
  · exact headerBuilt_of_outside addressed (.inr (by omega))
  · exact headerBuilt_of_outside addressed (.inl (by omega))

/-- What is apart from the blocks held is apart from those of the packets. -/
theorem Sound.apart_blocks (sound : s.Sound) {block : Nat × Nat}
    (apart : ∀ held ∈ s.held, Apart block held) : ∀ other ∈ s.blocks, Apart block other :=
  fun _ member => apart _ (sound.held.mem_iff.mpr member)

theorem Sound.outside_blocks (sound : s.Sound) {address : Nat}
    (outside : Outside s.held address) : Outside s.blocks address :=
  fun _ member => outside _ (sound.held.mem_iff.mpr member)

/-- The new entry brings its blocks. -/
theorem blocks_etherTx (s : Transmitter) (request : EtherRequest) (newPacket payloadCopy : Nat) :
    (s.etherTx request newPacket payloadCopy).blocks.Perm
      ((payloadCopy, request.payload.length) :: (newPacket, 24) :: s.blocks) := by
  let txdPkt : TxdPkt :=
    ⟨newPacket, request.dhost, request.etherType, payloadCopy, .ofNat request.payload.length⟩
  have new : txdPkt.blocks = [(payloadCopy, request.payload.length), (newPacket, 24)] := by
    rw [TxdPkt.blocks, TxdPkt.payloadBlock, toNat_payloadLen]
  have front : (s.etherTx request newPacket payloadCopy).packets.Perm (txdPkt :: s.packets) :=
    List.perm_middle
  refine ((front.flatMap_right _).append_left _).trans ?_
  rw [List.flatMap_cons, new]
  exact List.perm_append_comm_assoc _ _ _

theorem Sound.etherTx (sound : s.Sound) (nonempty : request.payload ≠ [])
    (stepped : step s (.etherTx request newPacket payloadCopy) = some target) : target.Sound := by
  obtain ⟨apart, apart', rfl⟩ := step_etherTx stepped
  have copied := sound.apart_blocks fun block member => apart' block (List.mem_cons_of_mem _ member)
  have framed := sound.frame (keeps_storeBytes copied)
  refine ⟨?_, ?_, ?_, framed.idle, framed.busy⟩
  · intro txdPkt member
    rcases List.mem_append.mp member with inHand | queued
    · exact sound.whole _ (List.mem_append_left _ inHand)
    · rcases List.mem_cons.mp queued with rfl | older
      · refine ⟨request.addressed, ?_⟩
        change 0 < (UInt16.ofNat request.payload.length).toNat
        rw [toNat_payloadLen]
        exact List.length_pos_of_ne_nil nonempty
      · exact sound.whole _ (List.mem_append_right _ older)
  · exact ((sound.held.cons _).cons _).trans
      (s.blocks_etherTx request newPacket payloadCopy).symm
  · exact List.pairwise_cons.mpr ⟨apart', List.pairwise_cons.mpr ⟨apart, sound.apart⟩⟩

/-- The copy of the payload is the payload. -/
theorem packetIn_copied (memory : Bytes) (request : EtherRequest) (newPacket payloadCopy : Nat) :
    TxdPkt.packetIn
        ⟨newPacket, request.dhost, request.etherType, payloadCopy, .ofNat request.payload.length⟩
        (storeBytes memory payloadCopy request.payload) = request.toEtherTxPkt := by
  have copied : bytesAt (fun i => storeBytes memory payloadCopy request.payload
      (payloadCopy + i)) (UInt16.ofNat request.payload.length).toNat = request.payload :=
    bytesAt_stored (toNat_payloadLen request).symm fun i bound =>
      storeBytes_of_inside (by rwa [toNat_payloadLen] at bound)
  rw [TxdPkt.packetIn, copied]

theorem Represents.etherTx (sound : s.Sound) (represents : s.Represents queues)
    (stepped : step s (.etherTx request newPacket payloadCopy) = some target) :
    target.Represents (queues.etherTx ⟨none, request.toEtherTxPkt⟩) := by
  obtain ⟨_, apart, rfl⟩ := step_etherTx stepped
  have copied := sound.apart_blocks fun block member => apart block (List.mem_cons_of_mem _ member)
  have framed := represents.frame (keeps_storeBytes copied)
  have new := congrArg (EtherEntry.mk none)
    (packetIn_copied s.memory request newPacket payloadCopy)
  exact ⟨congrArg₂ List.cons new.symm framed.queue, framed.hand, framed.wire, framed.nonempty⟩

theorem Sound.pop (sound : s.Sound) (stepped : step s (.pop header) = some target) :
    target.Sound := by
  obtain ⟨apart, txdPkt, rest, idle, queue, rfl⟩ := step_pop stepped
  have packets : s.packets = txdPkt :: rest := by
    rw [Transmitter.packets, idle, queue]
    rfl
  refine ⟨fun other member => sound.whole other (packets ▸ member), ?_,
    List.pairwise_cons.mpr ⟨apart, sound.apart⟩, nofun, fun xmit here => ?_⟩
  · have before : s.blocks = (txdPkt :: rest).flatMap TxdPkt.blocks := by
      rw [blocks, packets, idle]
      rfl
    exact (before ▸ sound.held).cons _
  · cases here
    have whole := sound.whole txdPkt (packets ▸ List.mem_cons_self)
    exact ⟨built_headerBuilt _ _ _ whole.1, sound.idle idle⟩

theorem Represents.pop (sound : s.Sound) (represents : s.Represents queues)
    (stepped : step s (.pop header) = some target) :
    ∃ queues', queues.etherPop = some queues' ∧ target.Represents queues' := by
  obtain ⟨apart, txdPkt, rest, idle, queue, rfl⟩ := step_pop stepped
  have whole := sound.whole txdPkt (by simp [packets, queue])
  have framed := represents.frame (keeps_headerBuilt whole.1 (sound.apart_blocks apart))
  have hand : queues.txdPkt = none := by
    rw [represents.hand, unsent, idle]
    rfl
  have queued : queues.etherTxQueue =
      (txdPkt :: rest).map (entryIn (headerBuilt s.memory header txdPkt)) := by
    rw [framed.queue, ← queue]
  refine ⟨{ queues with
    etherTxQueue := rest.map (entryIn (headerBuilt s.memory header txdPkt))
    txdPkt := some (entryIn (headerBuilt s.memory header txdPkt) txdPkt) }, ?_, rfl, rfl,
    framed.wire, framed.nonempty⟩
  rw [Queues.etherPop, hand, queued]
  rfl

end Queued

/-! ## The task and the controller -/

section Sent

variable {s : Transmitter} {xmit : Xmit} {queues : Queues}

theorem next_ne : ∀ index : Fin descLen, index + 1 ≠ index := by
  decide

theorem next_next_ne : ∀ index : Fin descLen, index + 1 + 1 ≠ index := by
  decide

theorem packets_emacXmitFrame (here : s.xmit = some xmit) {txdPkt : TxdPkt}
    (member : txdPkt ∈ (s.emacXmitFrame xmit).packets) : txdPkt ∈ s.packets := by
  rcases xmit with ⟨txdPkt, header, statement⟩
  cases statement with
  | wait =>
      unfold emacXmitFrame at member
      dsimp only at member
      split at member
      · exact member
      · exact List.mem_append_right _ member
  | _ =>
      rw [packets, here]
      exact member

/-- No block is empty. -/
theorem Sound.filled (sound : s.Sound) : ∀ block ∈ s.held, 0 < block.2 := by
  intro block member
  rcases List.mem_append.mp (sound.held.mem_iff.mp member) with header | packet
  · rcases List.mem_map.mp header with ⟨xmit, _, rfl⟩
    exact Nat.succ_pos 13
  · rcases List.mem_flatMap.mp packet with ⟨txdPkt, inHand, here⟩
    rcases List.mem_cons.mp here with rfl | entry
    · exact (sound.whole txdPkt inHand).2
    · cases List.mem_singleton.mp entry
      exact Nat.succ_pos 23

/-- What is held while the task has a packet in hand. -/
theorem Sound.held_inHand (sound : s.Sound) (here : s.xmit = some xmit) :
    s.held.Perm (xmit.headerBlock :: xmit.txdPkt.payloadBlock :: (xmit.txdPkt.address, 24) ::
      s.etherTxQueue.flatMap TxdPkt.blocks) := by
  have held := sound.held
  rw [blocks, packets, here] at held
  exact held

/-- The three calls of `free_mem` take off what the task has in hand. -/
theorem Sound.held_freed (sound : s.Sound) (here : s.xmit = some xmit) :
    (xmit.pointers.foldl freeMem s.held).Perm (s.etherTxQueue.flatMap TxdPkt.blocks) := by
  have fewer {held : List (Nat × Nat)} (ptr : Nat) (apart : held.Pairwise Apart)
      (filled : ∀ block ∈ held, 0 < block.2) :
      (freeMem held ptr).Pairwise Apart ∧ ∀ block ∈ freeMem held ptr, 0 < block.2 :=
    ⟨apart.filter _, fun block member => filled block (List.mem_of_mem_filter member)⟩
  have first := perm_filter_of_apart (sound.held_inHand here) sound.apart sound.filled
  rcases fewer xmit.header sound.apart sound.filled with ⟨apart, filled⟩
  have second := perm_filter_of_apart first apart filled
  rcases fewer xmit.txdPkt.payload apart filled with ⟨apart, filled⟩
  exact perm_filter_of_apart second apart filled

/-- Each statement does its part. -/
theorem Sound.task (sound : s.Sound) (here : s.xmit = some xmit) :
    (s.emacXmitFrame xmit).Sound := by
  have whole := fun txdPkt member => sound.whole txdPkt (packets_emacXmitFrame here member)
  have held := sound.held_inHand here
  rcases sound.busy xmit here with ⟨built, stage⟩
  rcases xmit with ⟨txdPkt, header, statement⟩
  have kept (desc : TxrxDescriptor) :
      Function.update s.txDesc (s.txProduceIndex + 1) desc s.txProduceIndex =
        s.txDesc s.txProduceIndex :=
    Function.update_of_ne (next_ne s.txProduceIndex).symm _ _
  cases statement with
  | headerPacket =>
      refine ⟨whole, held, sound.apart, (fun none => by cases none), fun _ next => ?_⟩
      cases next
      exact ⟨built, stage, by simp [emacXmitFrame]⟩
  | headerControl =>
      rcases stage with ⟨quiet, packet⟩
      refine ⟨whole, held, sound.apart, (fun none => by cases none), fun _ next => ?_⟩
      cases next
      exact ⟨built, quiet, by simp [emacXmitFrame, packet, Xmit.headerDesc]⟩
  | payloadPacket =>
      rcases stage with ⟨quiet, headerDesc⟩
      refine ⟨whole, held, sound.apart, (fun none => by cases none), fun _ next => ?_⟩
      cases next
      exact ⟨built, quiet, (kept _).trans headerDesc,
        by simp [emacXmitFrame]⟩
  | payloadControl =>
      rcases stage with ⟨quiet, headerDesc, packet⟩
      refine ⟨whole, held, sound.apart, (fun none => by cases none), fun _ next => ?_⟩
      cases next
      exact ⟨built, quiet, (kept _).trans headerDesc,
        by simp [emacXmitFrame, packet]⟩
  | payloadLast =>
      rcases stage with ⟨quiet, headerDesc, payload⟩
      refine ⟨whole, held, sound.apart, (fun none => by cases none), fun _ next => ?_⟩
      cases next
      exact ⟨built, quiet, (kept _).trans headerDesc,
        by simp [emacXmitFrame, payload, Xmit.payloadDesc]⟩
  | produceIndex =>
      rcases stage with ⟨⟨consumed, offset, frame⟩, headerDesc, payloadDesc⟩
      refine ⟨whole, held, sound.apart, (fun none => by cases none), fun _ next => ?_⟩
      cases next
      refine ⟨built, .inr ⟨s.txProduceIndex, rfl, .inl ⟨consumed, headerDesc, payloadDesc, ?_, ?_⟩⟩⟩
      · change s.offset < 14
        omega
      · change s.frame = List.take s.offset _
        rw [frame, offset, List.take_zero]
  | wait =>
      unfold emacXmitFrame at whole ⊢
      dsimp only at whole ⊢
      split
      · exact sound
      · rename_i done
        rw [if_neg done] at whole
        refine ⟨whole, sound.held_freed here, ?_, fun _ => ?_, fun _ next => by cases next⟩
        · exact ((sound.apart.filter _).filter _).filter _
        rcases stage with quiet | ⟨first, produced, sending⟩
        · exact quiet
        · exfalso
          have done : s.txProduceIndex = s.txConsumeIndex := not_not.mp done
          rcases sending with ⟨index, _⟩ | ⟨index, _⟩
          · exact next_next_ne first (by rw [← produced, done, index])
          · exact next_ne (first + 1) (by rw [← produced, done, index])

/-- A descriptor that is not consumed belongs to the frame in hand. -/
theorem Sound.sending (sound : s.Sound) (busy : s.txConsumeIndex ≠ s.txProduceIndex) :
    ∃ xmit first, s.xmit = some xmit ∧ xmit.stage = .wait ∧ xmit.Built s.memory ∧
      xmit.txdPkt.dhost.length = 6 ∧ 0 < xmit.txdPkt.payloadLen.toNat ∧
      s.txProduceIndex = first + 1 + 1 ∧ s.Sending xmit first := by
  cases here : s.xmit with
  | none => exact absurd (sound.idle here).1 busy
  | some xmit =>
      rcases sound.busy xmit here with ⟨built, stage⟩
      have whole := sound.whole xmit.txdPkt (by simp [packets, here])
      rcases xmit with ⟨txdPkt, header, statement⟩
      cases statement with
      | wait =>
          rcases stage with quiet | ⟨first, produced, sending⟩
          · exact absurd quiet.1 busy
          · exact ⟨_, first, rfl, rfl, built, whole.1, whole.2, produced, sending⟩
      | headerPacket => exact absurd stage.1 busy
      | _ => exact absurd stage.1.1 busy

/-- The controller has not yet all that it is to fetch. -/
theorem Sending.length_frame_lt {first : Fin descLen} (sending : s.Sending xmit first) :
    s.frame.length < 14 + xmitLen xmit.txdPkt.payloadLen.toNat := by
  rcases sending with ⟨_, _, _, bound, frame⟩ | ⟨_, _, bound, frame⟩
  · rw [frame, List.length_take]
    omega
  · rw [frame, List.length_take]
    omega

/-- A byte that is fetched lies in the header or in the payload. -/
theorem Sound.fetchAddress_held (sound : s.Sound) (busy : s.txConsumeIndex ≠ s.txProduceIndex) :
    ∃ block ∈ s.held, block.1 ≤ s.fetchAddress ∧ s.fetchAddress < block.1 + block.2 := by
  rcases sound.sending busy with
    ⟨xmit, first, here, _, _, _, nonempty, _, ⟨index, headerDesc, _, bound, _⟩ |
      ⟨index, payloadDesc, bound, _⟩⟩
  · refine ⟨xmit.headerBlock, (sound.held_inHand here).mem_iff.mpr List.mem_cons_self, ?_⟩
    rw [fetchAddress, index, headerDesc]
    exact ⟨Nat.le_add_right _ _, Nat.add_lt_add_left bound _⟩
  · refine ⟨xmit.txdPkt.payloadBlock, (sound.held_inHand here).mem_iff.mpr
      (List.mem_cons_of_mem _ List.mem_cons_self), ?_⟩
    rw [fetchAddress, index, payloadDesc]
    exact ⟨Nat.le_add_right _ _,
      Nat.add_lt_add_left (Nat.lt_of_lt_of_le bound (xmitLen_le nonempty)) _⟩

/-- One byte more of a list. -/
theorem take_append_byte {frame bytes : List UInt8} {byte : UInt8} {n : Nat}
    (taken : frame = bytes.take n) (next : bytes[n]? = some byte) :
    frame ++ [byte] = bytes.take (n + 1) := by
  rw [taken, List.take_add_one, next]
  rfl

theorem fetch_within (more : s.offset + 1 < (s.txDesc s.txConsumeIndex).size) :
    s.fetch = { s with
      offset := s.offset + 1, frame := s.frame ++ [s.memory s.fetchAddress] } :=
  if_pos more

theorem fetch_next (ends : ¬s.offset + 1 < (s.txDesc s.txConsumeIndex).size)
    (more : (s.txDesc s.txConsumeIndex).isLast = false) :
    s.fetch = { s with
      offset := 0
      txConsumeIndex := s.txConsumeIndex + 1
      frame := s.frame ++ [s.memory s.fetchAddress] } := by
  refine (if_neg ends).trans (if_neg ?_)
  rw [more]
  exact Bool.false_ne_true

theorem fetch_last (ends : ¬s.offset + 1 < (s.txDesc s.txConsumeIndex).size)
    (last : (s.txDesc s.txConsumeIndex).isLast = true) :
    s.fetch = { s with
      offset := 0
      txConsumeIndex := s.txConsumeIndex + 1
      frame := []
      wire := s.wire ++ [s.frame ++ [s.memory s.fetchAddress]] } :=
  (if_neg ends).trans (if_pos last)

/-- The controller goes on with the frame in hand, or has sent it. -/
theorem Sound.fetch_cases (sound : s.Sound) (busy : s.txConsumeIndex ≠ s.txProduceIndex) :
    ∃ xmit first, s.xmit = some xmit ∧ xmit.stage = .wait ∧ s.txProduceIndex = first + 1 + 1 ∧
      ((∃ index offset frame,
          s.fetch = { s with txConsumeIndex := index, offset, frame } ∧
          frame = s.frame ++ [s.memory s.fetchAddress] ∧ s.fetch.Sending xmit first) ∨
        s.fetch = { s with
          txConsumeIndex := s.txProduceIndex
          offset := 0
          frame := []
          wire := s.wire ++ [onWire (xmit.frameIn s.memory)] }) := by
  rcases sound.sending busy with
    ⟨xmit, first, here, waiting, built, addressed, nonempty, produced, sending⟩
  refine ⟨xmit, first, here, waiting, produced, ?_⟩
  rcases sending with ⟨index, headerDesc, payloadDesc, bound, frame⟩ |
    ⟨index, payloadDesc, bound, frame⟩
  · have byte : (xmit.frameIn s.memory)[s.offset]? = some (s.memory s.fetchAddress) := by
      rw [getElem?_frameIn_header built addressed bound, fetchAddress, index, headerDesc]
      rfl
    have longer := take_append_byte frame byte
    have size : (s.txDesc s.txConsumeIndex).size = 14 := by
      rw [index, headerDesc, size_headerDesc]
    left
    by_cases more : s.offset + 1 < 14
    · rw [fetch_within (by rwa [size])]
      exact ⟨_, _, _, rfl, rfl, .inl ⟨index, headerDesc, payloadDesc, more, longer⟩⟩
    · rw [fetch_next (by rwa [size]) (by rw [index, headerDesc, not_isLast_headerDesc])]
      have whole : s.offset + 1 = 14 := by omega
      refine ⟨_, _, _, rfl, rfl, .inr ⟨congrArg (· + 1) index, payloadDesc, Nat.succ_pos _, ?_⟩⟩
      rw [longer, whole]
      rfl
  · have size : (s.txDesc s.txConsumeIndex).size = xmitLen xmit.txdPkt.payloadLen.toNat := by
      rw [index, payloadDesc, size_payloadDesc nonempty]
    have byte : (xmit.frameIn s.memory)[14 + s.offset]? = some (s.memory s.fetchAddress) := by
      rw [getElem?_frameIn_payload addressed (Nat.lt_of_lt_of_le bound (xmitLen_le nonempty)),
        fetchAddress, index, payloadDesc]
      rfl
    have longer := take_append_byte frame byte
    by_cases more : s.offset + 1 < xmitLen xmit.txdPkt.payloadLen.toNat
    · left
      rw [fetch_within (by rwa [size])]
      exact ⟨_, _, _, rfl, rfl, .inr ⟨index, payloadDesc, more, longer⟩⟩
    · right
      have whole : 14 + s.offset + 1 = 14 + xmitLen xmit.txdPkt.payloadLen.toNat := by omega
      have sent : s.frame ++ [s.memory s.fetchAddress] = onWire (xmit.frameIn s.memory) := by
        rw [longer, whole, onWire, length_frameIn addressed, Nat.add_sub_cancel_left]
      rw [fetch_last (by rwa [size]) (by rw [index, payloadDesc, isLast_payloadDesc]), sent,
        produced, index]

/-- The controller keeps to the frame in hand. -/
theorem Sound.fetch (sound : s.Sound) (busy : s.txConsumeIndex ≠ s.txProduceIndex) :
    s.fetch.Sound := by
  rcases sound.fetch_cases busy with ⟨xmit, first, here, waiting, produced, outcome⟩
  rcases sound.busy xmit here with ⟨built, _⟩
  have inStage (target : Transmitter) (wait : target.Quiet ∨ ∃ first,
      target.txProduceIndex = first + 1 + 1 ∧ target.Sending xmit first) :
      target.InStage xmit := by
    unfold InStage
    rw [waiting]
    exact wait
  rcases outcome with ⟨index, offset, frame, fetched, _, sending⟩ | fetched
  · have stage := inStage s.fetch (.inr ⟨first, by rw [fetched]; exact produced, sending⟩)
    rw [fetched] at stage ⊢
    refine ⟨sound.whole, sound.held, sound.apart, fun none => ?_, fun other there => ?_⟩
    · cases here.symm.trans none
    · cases here.symm.trans there
      exact ⟨built, stage⟩
  · have stage := inStage s.fetch (.inl (by rw [fetched]; exact ⟨rfl, rfl, rfl⟩))
    rw [fetched] at stage ⊢
    refine ⟨sound.whole, sound.held, sound.apart, fun _ => ⟨rfl, rfl, rfl⟩,
      fun other there => ?_⟩
    cases here.symm.trans there
    exact ⟨built, stage⟩

theorem unsent_of_busy (here : s.xmit = some xmit)
    (busy : s.txConsumeIndex ≠ s.txProduceIndex) : s.unsent = some xmit.txdPkt := by
  rw [unsent, here, Option.bind_some, if_neg fun done => busy done.2]

theorem unsent_of_stage {txdPkt : TxdPkt} {header : Nat} {stage : XmitStage}
    (here : s.xmit = some ⟨txdPkt, header, stage⟩) (before : stage ≠ .wait) :
    s.unsent = some txdPkt := by
  rw [unsent, here, Option.bind_some, if_neg fun done => before done.1]

theorem unsent_of_done (here : s.xmit = some xmit) (waiting : xmit.stage = .wait)
    (done : s.txConsumeIndex = s.txProduceIndex) : s.unsent = none := by
  rw [unsent, here, Option.bind_some, if_pos ⟨waiting, done⟩]

/-- What the task does by itself sends nothing. -/
theorem Sound.unsent_task (sound : s.Sound) (here : s.xmit = some xmit) :
    (s.emacXmitFrame xmit).unsent = s.unsent := by
  rcases sound.busy xmit here with ⟨_, stage⟩
  rcases xmit with ⟨txdPkt, header, statement⟩
  cases statement with
  | produceIndex =>
      rw [unsent_of_stage here (by decide)]
      refine @unsent_of_busy _ ⟨txdPkt, header, .wait⟩ rfl fun done => ?_
      exact next_next_ne s.txProduceIndex (done.symm.trans stage.1.1)
  | wait =>
      unfold emacXmitFrame
      dsimp only
      split
      · rfl
      · rename_i done
        rw [unsent_of_done here rfl (not_not.mp done).symm]
        rfl
  | _ =>
      rw [unsent_of_stage here (by decide)]
      exact unsent_of_stage rfl (by decide)

theorem Sending.busy {first : Fin descLen} (sending : s.Sending xmit first)
    (produced : s.txProduceIndex = first + 1 + 1) : s.txConsumeIndex ≠ s.txProduceIndex := by
  rw [produced]
  rcases sending with ⟨index, _⟩ | ⟨index, _⟩
  · rw [index]
    exact (next_next_ne first).symm
  · rw [index]
    exact (next_ne (first + 1)).symm

/-- What `emac_xmit_frame` leaves alone. -/
theorem emacXmitFrame_kept (s : Transmitter) (xmit : Xmit) :
    (s.emacXmitFrame xmit).memory = s.memory ∧
      (s.emacXmitFrame xmit).etherTxQueue = s.etherTxQueue ∧
      (s.emacXmitFrame xmit).wire = s.wire ∧ (s.emacXmitFrame xmit).frame = s.frame := by
  unfold emacXmitFrame
  dsimp only
  split
  case h_7 => split <;> exact ⟨rfl, rfl, rfl, rfl⟩
  all_goals exact ⟨rfl, rfl, rfl, rfl⟩

theorem Represents.task (represents : s.Represents queues) (sound : s.Sound)
    (here : s.xmit = some xmit) : (s.emacXmitFrame xmit).Represents queues := by
  rcases s.emacXmitFrame_kept xmit with ⟨memory, queue, wire, _⟩
  exact ⟨by rw [memory, queue, represents.queue],
    by rw [memory, sound.unsent_task here, represents.hand], by rw [wire, represents.wire],
    represents.nonempty⟩

/-- With its last byte the frame in hand is transmitted. -/
theorem Represents.fetch (represents : s.Represents queues) (sound : s.Sound)
    (busy : s.txConsumeIndex ≠ s.txProduceIndex) :
    s.fetch.Represents queues ∨
      ∃ queues', queues.etherXmit = some queues' ∧ s.fetch.Represents queues' := by
  rcases sound.fetch_cases busy with ⟨xmit, first, here, waiting, produced, outcome⟩
  rcases sound.whole xmit.txdPkt (by simp [packets, here]) with ⟨addressed, filled⟩
  have before := unsent_of_busy here busy
  rcases outcome with ⟨index, offset, frame, fetched, _, sending⟩ | fetched
  · left
    have still : s.fetch.txConsumeIndex ≠ s.fetch.txProduceIndex :=
      sending.busy (by rw [fetched]; exact produced)
    have after := unsent_of_busy (by rw [fetched]; exact here) still
    refine ⟨?_, ?_, ?_, represents.nonempty⟩
    · rw [fetched]
      exact represents.queue
    · rw [after, represents.hand, before, fetched]
    · rw [fetched]
      exact represents.wire
  · right
    have hand : queues.txdPkt = some (entryIn s.memory xmit.txdPkt) := by
      rw [represents.hand, before]
      rfl
    have after := @unsent_of_done s.fetch xmit (by rw [fetched]; exact here) waiting
      (by rw [fetched])
    refine ⟨{ queues with
      txdPkt := none
      transmitted := queues.transmitted ++ [(none, xmit.frameIn s.memory)] }, ?_, ?_, ?_, ?_, ?_⟩
    · rw [Queues.etherXmit, hand]
      rfl
    · rw [fetched]
      exact represents.queue
    · rw [after]
      rfl
    · rw [fetched, List.map_append, ← represents.wire]
      rfl
    · intro sent member
      rcases List.mem_append.mp member with older | new
      · exact represents.nonempty sent older
      · rw [List.mem_singleton.mp new, length_frameIn addressed]
        omega

end Sent

end Transmitter

end Lpc17xx.Emac
