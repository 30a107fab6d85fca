import Lpc17xx.Emac.Transmission
import Mathlib.Algebra.Order.BigOperators.Group.List

/-!
# Runs of the transmitter

Whatever the tasks, the interrupts and the controller do in whatever order, the
transmitter refines the queues, a call of `ether_tx` being the same call there.  The
controller reads nothing but held blocks, the task frees each block once, and what
`ether_tx` has been given is on the wire after a number of steps that is known beforehand.
-/

namespace Lpc17xx.Emac

open Lpc17xx.Link
open Lpc17xx.Memory
open Lpc17xx.Protocol (etherTypeIp)
open Lpc17xx.Queue
open Lpc17xx.Transition

/-- The statements from this one to the end of the loop. -/
def XmitStage.stepsLeft : XmitStage → Nat
  | .headerPacket => 7
  | .headerControl => 6
  | .payloadPacket => 5
  | .payloadControl => 4
  | .payloadLast => 3
  | .produceIndex => 2
  | .wait => 1

/-- The bytes of a frame that the controller fetches. -/
def TxdPkt.frameLen (txdPkt : TxdPkt) : Nat :=
  14 + xmitLen txdPkt.payloadLen.toNat

namespace Transmitter

/-- Nobody queues an empty payload. -/
def Filled (_ : Transmitter) : TransmitEvent → Prop
  | .etherTx request _ _ => request.payload ≠ []
  | _ => True

instance (s : Transmitter) : DecidablePred s.Filled
  | .etherTx request _ _ => inferInstanceAs (Decidable (request.payload ≠ []))
  | .pop _ | .task | .fetch | .write _ _ => inferInstanceAs (Decidable True)

/-- The controller fetches from a block that is held, and what the task frees are three
different blocks that are held. -/
def UsesHeld (s : Transmitter) (event : TransmitEvent) (_ : Transmitter) : Prop :=
  match event with
  | .fetch => ∃ block ∈ s.held, block.1 ≤ s.fetchAddress ∧ s.fetchAddress < block.1 + block.2
  | .task => ∀ xmit ∈ s.xmit, xmit.pointers.Nodup ∧ ∀ ptr ∈ xmit.pointers, ptr ∈ s.held.map Prod.fst
  | _ => True

/-- What an event is for the queues: `ether_tx` and the pop are the same there, the last byte
of a frame is its transmission, and all else is not seen. -/
def Matching : TransmitEvent → List QueueEvent → Prop
  | .etherTx request _ _, parts => parts = [.arpTx request.toEtherTxPkt]
  | .pop _, parts => parts = [.etherPop]
  | .fetch, parts => parts = [] ∨ parts = [.etherXmit]
  | .task, parts | .write _ _, parts => parts = []

section Runs

variable {s target : Transmitter} {queues : Queues} {event : TransmitEvent}

/-- The step lemma. -/
theorem Sound.next (sound : s.Sound) (filled : s.Filled event)
    (stepped : step s event = some target) : target.Sound := by
  cases event with
  | etherTx request newPacket payloadCopy => exact sound.etherTx filled stepped
  | pop header => exact sound.pop stepped
  | task =>
      obtain ⟨xmit, here, rfl⟩ := Option.map_eq_some_iff.mp stepped
      exact sound.task here
  | fetch =>
      obtain ⟨busy, ⟨⟩⟩ := Option.ite_none_right_eq_some.mp stepped
      exact sound.fetch busy
  | write address byte =>
      obtain ⟨outside, ⟨⟩⟩ := Option.ite_none_right_eq_some.mp stepped
      exact sound.frame (keeps_update (sound.outside_blocks outside) byte)

/-- The transmitter refines the queues. -/
theorem simulation (resolveAddress : UInt32 → Option (List UInt8)) :
    Simulation step (Queues.step resolveAddress) Filled
      (fun s queues => s.Sound ∧ s.Represents queues) Matching := by
  refine ⟨fun s event target queues ⟨sound, represents⟩ filled stepped => ?_⟩
  suffices matched : ∃ parts queues', Matching event parts ∧
      run (Queues.step resolveAddress) queues parts = some queues' ∧
      target.Represents queues' by
    rcases matched with ⟨parts, queues', part, ran, represented⟩
    exact ⟨parts, queues', part, ran, sound.next filled stepped, represented⟩
  cases event with
  | etherTx request newPacket payloadCopy =>
      exact ⟨[.arpTx request.toEtherTxPkt], _, rfl, rfl, represents.etherTx sound stepped⟩
  | pop header =>
      rcases represents.pop sound stepped with ⟨queues', pop, represented⟩
      exact ⟨[.etherPop], queues', rfl, by simp [Queues.step, pop], represented⟩
  | task =>
      obtain ⟨xmit, here, rfl⟩ := Option.map_eq_some_iff.mp stepped
      exact ⟨[], queues, rfl, rfl, represents.task sound here⟩
  | fetch =>
      obtain ⟨busy, ⟨⟩⟩ := Option.ite_none_right_eq_some.mp stepped
      rcases represents.fetch sound busy with same | ⟨queues', xmit, represented⟩
      · exact ⟨[], queues, .inl rfl, rfl, same⟩
      · exact ⟨[.etherXmit], queues', .inr rfl, by simp [Queues.step, xmit], represented⟩
  | write address byte =>
      obtain ⟨outside, ⟨⟩⟩ := Option.ite_none_right_eq_some.mp stepped
      exact ⟨[], queues, rfl, rfl,
        represents.frame (keeps_update (sound.outside_blocks outside) byte)⟩

/-- The pointers of the packet in hand are those of three blocks. -/
theorem Sound.pointers_held (sound : s.Sound) {xmit : Xmit} (here : s.xmit = some xmit) :
    xmit.pointers.Nodup ∧ ∀ ptr ∈ xmit.pointers, ptr ∈ s.held.map Prod.fst := by
  have held := (sound.held_inHand here).map Prod.fst
  have distinct : (s.held.map Prod.fst).Nodup := by
    rw [List.nodup_iff_pairwise_ne, List.pairwise_map]
    exact sound.apart.imp_of_mem fun first second apart =>
      apart.ne (sound.filled _ first) (sound.filled _ second)
  constructor
  · have all := held.nodup_iff.mp distinct
    exact (List.nodup_append.mp (show (xmit.pointers ++ _).Nodup from all)).1
  · intro ptr member
    exact held.mem_iff.mpr (List.mem_append_left (_ : List Nat) member)

theorem usesHeld_of_step (sound : s.Sound) (stepped : step s event = some target) :
    s.UsesHeld event target := by
  cases event with
  | fetch =>
      obtain ⟨busy, _⟩ := Option.ite_none_right_eq_some.mp stepped
      exact sound.fetchAddress_held busy
  | task => exact fun xmit here => sound.pointers_held here
  | _ => trivial

theorem sound_start (memory : Bytes) (txDesc : Fin descLen → TxrxDescriptor) :
    (start memory txDesc).Sound :=
  ⟨nofun, .refl _, .nil, fun _ => ⟨rfl, rfl, rfl⟩, nofun⟩

theorem represents_start (memory : Bytes) (txDesc : Fin descLen → TxrxDescriptor) :
    (start memory txDesc).Represents Queues.empty :=
  ⟨rfl, rfl, rfl, nofun⟩

/-- In every run that queues no empty payload the controller reads held blocks only, and the
task frees each block that it holds once; and the queues have a run in which `ether_tx` is
called with the same packets at the same places, and which transmits the frames on the wire:
the whole of those whose payload is not longer than 11 bits can say. -/
theorem refines_queues (resolveAddress : UInt32 → Option (List UInt8)) {memory : Bytes}
    {txDesc : Fin descLen → TxrxDescriptor} {events : List TransmitEvent}
    (filled : Guarded step Filled (start memory txDesc) events)
    (executed : run step (start memory txDesc) events = some s) :
    Along step UsesHeld (start memory txDesc) events ∧
      ∃ parts queues, List.Forall₂ Matching events parts ∧
        run (Queues.step resolveAddress) Queues.empty parts.flatten = some queues ∧
        s.Represents queues ∧
        ∀ sent ∈ queues.transmitted, onWire sent.2 = sent.2 ↔ sent.2.length ≤ 14 + 2048 := by
  constructor
  · exact @along_of_guarded _ _ step Sound Filled UsesHeld
      (fun _ _ _ sound filled => sound.next filled)
      (fun _ _ _ sound _ => usesHeld_of_step sound) _ _ (sound_start memory txDesc) filled
  · rcases (simulation resolveAddress).exists_run
      ⟨sound_start memory txDesc, represents_start memory txDesc⟩ filled executed with
      ⟨parts, queues, matched, ran, _, represents⟩
    exact ⟨parts, queues, matched, ran, represents,
      fun sent member => onWire_eq_self_iff (represents.nonempty sent member)⟩

/-- A payload of one byte. -/
def oneByte : EtherRequest :=
  ⟨⟨[1, 2, 3, 4, 5, 6], etherTypeIp, [9]⟩, rfl, by decide⟩

/-- What sends it. -/
def sendsOne : List TransmitEvent :=
  [.write 99 7, .pop 200] ++ List.replicate 6 .task ++ [.fetch, .write 101 8] ++
    List.replicate 14 .fetch ++ [.task]

theorem refines_queues_example :
    ∃ s, run step (start (fun _ => 0) fun _ => ⟨0, 0⟩) (.etherTx oneByte 300 100 :: sendsOne) =
        some s ∧
      Along step UsesHeld (start (fun _ => 0) fun _ => ⟨0, 0⟩)
        (.etherTx oneByte 300 100 :: sendsOne) ∧
      ∃ parts queues, List.Forall₂ Matching (.etherTx oneByte 300 100 :: sendsOne) parts ∧
        run (Queues.step fun _ => none) Queues.empty parts.flatten = some queues ∧
        s.Represents queues ∧
        ∀ sent ∈ queues.transmitted, onWire sent.2 = sent.2 ↔ sent.2.length ≤ 14 + 2048 := by
  have ends : (run step (start (fun _ => 0) fun _ => ⟨0, 0⟩)
      (.etherTx oneByte 300 100 :: sendsOne)).isSome := by decide
  obtain ⟨s, executed⟩ := Option.isSome_iff_exists.mp ends
  exact ⟨s, executed, refines_queues (fun _ => none) (by decide) executed⟩

end Runs

/-! ## What is queued is sent -/

/-- The packets that `ether_tx` is given. -/
def requests : TransmitEvent → List EtherTxPkt
  | .etherTx request _ _ => [request.toEtherTxPkt]
  | _ => []

/-- What goes out for a packet. -/
def sentFor (packet : EtherTxPkt) : List UInt8 :=
  onWire (etherXmitPayload packet)

/-- The frames on the wire, and those that will be there when the task has popped what
is queued. -/
def outcome (s : Transmitter) : List (List UInt8) :=
  s.wire ++ (s.unsent.toList ++ s.etherTxQueue).map fun txdPkt =>
    sentFor (txdPkt.packetIn s.memory)

/-- The steps that are left: to pop each entry, to run through `emac_xmit_frame`, and to
fetch each byte. -/
def stepsLeft (s : Transmitter) : Nat :=
  (s.etherTxQueue.map fun txdPkt => 8 + txdPkt.frameLen).sum +
    (s.xmit.toList.map fun xmit => xmit.stage.stepsLeft).sum +
    (s.unsent.toList.map fun txdPkt => txdPkt.frameLen - s.frame.length).sum

/-- The loop of `emac_xmit_frame` goes round. -/
def Spins (s : Transmitter) : Prop :=
  (∃ xmit ∈ s.xmit, xmit.stage = .wait) ∧ s.txProduceIndex ≠ s.txConsumeIndex

instance (s : Transmitter) : Decidable s.Spins :=
  inferInstanceAs (Decidable ((∃ xmit ∈ s.xmit, _) ∧ _))

/-- Counts the steps of the task and the controller, but not the rounds of the loop. -/
def advances (s : Transmitter) : TransmitEvent → Nat
  | .pop _ | .fetch => 1
  | .task => if s.Spins then 0 else 1
  | .etherTx _ _ _ | .write _ _ => 0

/-- Nothing new is queued. -/
def Closed (_ : Transmitter) : TransmitEvent → Prop
  | .etherTx _ _ _ => False
  | _ => True

instance (s : Transmitter) : DecidablePred s.Closed
  | .etherTx _ _ _ => inferInstanceAs (Decidable False)
  | .pop _ | .task | .fetch | .write _ _ => inferInstanceAs (Decidable True)

section Sent

variable {s target : Transmitter} {event : TransmitEvent}

theorem outcome_eq {s target : Transmitter} (wire : target.wire = s.wire)
    (packets : (target.unsent.toList ++ target.etherTxQueue) =
      s.unsent.toList ++ s.etherTxQueue)
    (kept : ∀ txdPkt ∈ s.unsent.toList ++ s.etherTxQueue,
      txdPkt.packetIn target.memory = txdPkt.packetIn s.memory) :
    target.outcome = s.outcome := by
  rw [outcome, outcome, wire, packets, List.append_cancel_left_eq]
  apply List.map_congr_left
  intro txdPkt member
  rw [kept txdPkt member]

theorem mem_unsent {txdPkt : TxdPkt} (unsent : s.unsent = some txdPkt) :
    ∃ xmit, s.xmit = some xmit ∧ xmit.txdPkt = txdPkt := by
  obtain ⟨xmit, here, kept⟩ := Option.bind_eq_some_iff.mp unsent
  split at kept
  · cases kept
  · cases kept
    exact ⟨xmit, here, rfl⟩

theorem Keeps.waiting {memory : Bytes} (keeps : s.Keeps memory) {txdPkt : TxdPkt}
    (member : txdPkt ∈ s.unsent.toList ++ s.etherTxQueue) :
    txdPkt.packetIn memory = txdPkt.packetIn s.memory := by
  rcases List.mem_append.mp member with unsent | queued
  · rcases mem_unsent (Option.mem_toList.mp unsent) with ⟨xmit, here, rfl⟩
    exact keeps.inHand here
  · exact keeps.queued queued

theorem Sound.advances_pop {header : Nat} (sound : s.Sound)
    (stepped : step s (.pop header) = some target) :
    target.outcome = s.outcome ∧ 1 + target.stepsLeft ≤ s.stepsLeft := by
  obtain ⟨apart, txdPkt, rest, idle, queue, rfl⟩ := step_pop stepped
  have whole := sound.whole txdPkt (by simp [packets, queue])
  have keeps := keeps_headerBuilt whole.1 (sound.apart_blocks apart)
  have before : s.unsent = none := by
    rw [unsent, idle]
    rfl
  constructor
  · refine outcome_eq rfl ?_ fun _ member => keeps.waiting member
    rw [before, queue]
    rfl
  · have fresh := (sound.idle idle).2.2
    have now : ∀ memory held queue, ({ s with
        memory, held, etherTxQueue := queue
        xmit := some ⟨txdPkt, header, .headerPacket⟩ } : Transmitter).unsent = some txdPkt :=
      fun _ _ _ => unsent_of_stage rfl (by decide)
    rw [stepsLeft, stepsLeft, now, before, idle, queue]
    simp [fresh, XmitStage.stepsLeft]
    omega

theorem Sound.advances_task {xmit : Xmit} (sound : s.Sound) (here : s.xmit = some xmit) :
    (s.emacXmitFrame xmit).outcome = s.outcome ∧
      s.advances .task + (s.emacXmitFrame xmit).stepsLeft ≤ s.stepsLeft := by
  rcases s.emacXmitFrame_kept xmit with ⟨memory, queue, wire, frame⟩
  have unsent := sound.unsent_task here
  constructor
  · exact outcome_eq wire (by rw [unsent, queue]) fun _ _ => by rw [memory]
  · have rank : s.advances .task +
        ((s.emacXmitFrame xmit).xmit.toList.map fun xmit => xmit.stage.stepsLeft).sum ≤
          xmit.stage.stepsLeft := by
      have most : s.advances .task ≤ 1 := by
        unfold advances
        dsimp only
        split <;> omega
      rcases xmit with ⟨txdPkt, header, statement⟩
      cases statement with
      | wait =>
          unfold emacXmitFrame
          dsimp only
          split
          · rename_i spins
            have none : s.advances .task = 0 := if_pos ⟨⟨_, here, rfl⟩, spins⟩
            rw [none, here]
            exact Nat.le_of_eq (Nat.zero_add _)
          · exact most
      | _ => exact Nat.add_le_add_right most _
    rw [stepsLeft, stepsLeft, unsent, queue, frame, here]
    simp only [Option.toList_some, List.map_cons, List.map_nil, List.sum_cons, List.sum_nil]
    omega

theorem Sound.advances_fetch (sound : s.Sound) (busy : s.txConsumeIndex ≠ s.txProduceIndex) :
    s.fetch.outcome = s.outcome ∧ 1 + s.fetch.stepsLeft ≤ s.stepsLeft := by
  rcases sound.sending busy with ⟨xmit', first', here', _, _, _, _, _, sending'⟩
  rcases sound.fetch_cases busy with ⟨xmit, first, here, waiting, produced, fetched⟩
  obtain rfl : xmit = xmit' := Option.some.inj (here.symm.trans here')
  have short : s.frame.length < xmit.txdPkt.frameLen := sending'.length_frame_lt
  have before := unsent_of_busy here busy
  rcases fetched with ⟨index, offset, frame, fetched, longer, sending⟩ | fetched
  · have still : s.fetch.txConsumeIndex ≠ s.fetch.txProduceIndex :=
      sending.busy (by rw [fetched]; exact produced)
    have after := unsent_of_busy (by rw [fetched]; exact here) still
    constructor
    · refine outcome_eq (by rw [fetched]) ?_ fun _ _ => by rw [fetched]
      rw [before, after, fetched]
    · rw [stepsLeft, stepsLeft, before, after, fetched, longer]
      simp
      omega
  · have after := @unsent_of_done s.fetch xmit (by rw [fetched]; exact here) waiting
      (by rw [fetched])
    constructor
    · rw [outcome, outcome, before, after, fetched]
      simp [Xmit.frameIn, sentFor]
    · rw [stepsLeft, stepsLeft, before, after, fetched]
      simp
      omega

/-- The step lemma for what is left to do. -/
theorem Sound.lowers (sound : s.Sound) (closed : s.Closed event)
    (stepped : step s event = some target) :
    target.outcome = s.outcome ∧ s.advances event + target.stepsLeft ≤ s.stepsLeft := by
  cases event with
  | etherTx request newPacket payloadCopy => exact closed.elim
  | pop header => exact sound.advances_pop stepped
  | task =>
      obtain ⟨xmit, here, rfl⟩ := Option.map_eq_some_iff.mp stepped
      exact sound.advances_task here
  | fetch =>
      obtain ⟨busy, ⟨⟩⟩ := Option.ite_none_right_eq_some.mp stepped
      exact sound.advances_fetch busy
  | write address byte =>
      obtain ⟨outside, ⟨⟩⟩ := Option.ite_none_right_eq_some.mp stepped
      have keeps := keeps_update (sound.outside_blocks outside) byte
      exact ⟨outcome_eq rfl rfl fun _ member => keeps.waiting member,
        Nat.le_of_eq (Nat.zero_add _)⟩

end Sent

end Transmitter

end Lpc17xx.Emac
