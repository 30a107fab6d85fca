import Lpc17xx.Emac.ReceiveRuns
import Lpc17xx.Emac.TransmitRuns

/-!
# Two nodes and a cable

What the controller of one node sends, the controller of another receives, byte by byte,
with what the hardware adds to a frame behind it.  Both nodes go on meanwhile, each with its
own memory, tasks and interrupts.
-/

namespace Lpc17xx.Emac

open Lpc17xx.Cbuf
open Lpc17xx.Memory
open Lpc17xx.Queue
open Lpc17xx.Transition

/-- The transmitter of one node and the receiver of the other. -/
structure Cable where
  sender : Transmitter
  receiver : Receiver

/-- What can happen at either end, and on the cable: the next byte goes over it. -/
inductive CableEvent where
  | transmit (event : TransmitEvent)
  | byte (other : UInt32)
  | receive (event : ReceiveEvent)

namespace Cable

/-- The frame as it goes over the cable.  The padding and the checksum, which `emac_init`
leaves to the hardware, are `trailer`. -/
def sealed (trailer : List UInt8 → List UInt8) (frame : List UInt8) : List UInt8 :=
  frame ++ trailer frame

variable (trailer : List UInt8 → List UInt8)

/-- The frame at hand: the first one that has not come whole. -/
def atHand (s : Cable) : Option (List UInt8) :=
  s.sender.wire[s.receiver.received.length]?.map (sealed trailer)

/-- One event. -/
def step : Step Cable CableEvent
  | s, .transmit event => (Transmitter.step s.sender event).map fun sender => { s with sender }
  | s, .byte other => do
      let frame ← s.atHand trailer
      let byte ← frame[s.receiver.arriving.length]?
      let last := decide (s.receiver.arriving.length + 1 = frame.length)
      (Receiver.step s.receiver (.byte byte last other)).map fun receiver => { s with receiver }
  | _, .receive (.byte _ _ _) => none
  | s, .receive event => (Receiver.step s.receiver event).map fun receiver => { s with receiver }

/-- Nobody queues an empty payload, and what goes over the cable fits one fragment buffer,
or fills two. -/
def Fits (s : Cable) : CableEvent → Prop
  | .transmit event => s.sender.Filled event
  | .byte _ => ∀ frame ∈ s.atHand trailer,
      frame.length ≤ rxFragBufSz ∨ frame.length = 2 * rxFragBufSz
  | .receive _ => True

instance (s : Cable) : DecidablePred (s.Fits trailer)
  | .transmit event => inferInstanceAs (Decidable (s.sender.Filled event))
  | .byte _ => inferInstanceAs (Decidable (∀ frame ∈ s.atHand trailer, _))
  | .receive _ => inferInstanceAs (Decidable True)

/-- The nodes when `emac_init` has run on both. -/
def start (memory : Bytes) (txDesc : Fin descLen → TxrxDescriptor) (memory' : Bytes)
    (packet : Fin descLen → Nat) (rxStatus : Fin descLen → UInt32) : Cable where
  sender := Transmitter.start memory txDesc
  receiver := Receiver.start memory' packet rxStatus

end Cable

section Ends

variable {s target : Receiver} {sender sender' : Transmitter}

/-- What has gone out stays out. -/
theorem Transmitter.wire_prefix {event : TransmitEvent}
    (stepped : Transmitter.step sender event = some sender') : sender.wire <+: sender'.wire := by
  cases event with
  | etherTx request newPacket payloadCopy =>
      obtain ⟨_, _, rfl⟩ := Transmitter.step_etherTx stepped
      exact List.prefix_rfl
  | pop header =>
      obtain ⟨_, _, _, _, _, rfl⟩ := Transmitter.step_pop stepped
      exact List.prefix_rfl
  | task =>
      obtain ⟨xmit, _, rfl⟩ := Option.map_eq_some_iff.mp stepped
      rw [(sender.emacXmitFrame_kept xmit).2.2.1]
  | fetch =>
      obtain ⟨_, ⟨⟩⟩ := Option.ite_none_right_eq_some.mp stepped
      unfold Transmitter.fetch
      dsimp only
      split
      · exact List.prefix_rfl
      · split
        · exact List.prefix_append _ _
        · exact List.prefix_rfl
  | write address byte =>
      obtain ⟨_, ⟨⟩⟩ := Option.ite_none_right_eq_some.mp stepped
      exact List.prefix_rfl

theorem Receiver.arriving_byte (s : Receiver) (value : UInt8) (last : Bool) (other : UInt32) :
    (s.byte value last other).arriving = if last then [] else s.arriving ++ [value] :=
  (apply_ite Receiver.arriving _ _ _).trans (ite_self _)

theorem Receiver.received_byte (s : Receiver) (value : UInt8) (last : Bool) (other : UInt32) :
    (s.byte value last other).received =
      if last then s.received ++ [s.arriving ++ [value]] else s.received :=
  (apply_ite Receiver.received _ _ _).trans (ite_self _)

/-- Only a byte that comes in is received. -/
theorem Receiver.received_step {event : ReceiveEvent}
    (other : ∀ value last status, event ≠ .byte value last status)
    (stepped : Receiver.step s event = some target) :
    target.received = s.received ∧ target.arriving = s.arriving := by
  cases event with
  | byte value last status => exact absurd rfl (other value last status)
  | enter =>
      obtain ⟨_, ⟨⟩⟩ := Option.ite_none_left_eq_some.mp stepped
      exact ⟨rfl, rfl⟩
  | round block =>
      obtain ⟨_, ⟨⟩⟩ := Option.ite_none_right_eq_some.mp stepped
      exact ⟨(apply_ite Receiver.received _ _ _).trans (ite_self _),
        (apply_ite Receiver.arriving _ _ _).trans (ite_self _)⟩
  | leave =>
      obtain ⟨_, ⟨⟩⟩ := Option.ite_none_right_eq_some.mp stepped
      exact ⟨rfl, rfl⟩
  | write address value =>
      obtain ⟨_, ⟨⟩⟩ := Option.ite_none_right_eq_some.mp stepped
      exact ⟨rfl, rfl⟩

end Ends

namespace Cable

variable {trailer : List UInt8 → List UInt8} {packet : Fin descLen → Nat}
  {resolveAddress : UInt32 → Option (List UInt8)} {s target : Cable} {queues : Queues}
  {driver : Driver} {event : CableEvent}

section Invariant

/-- Each end is where its own model is, and between them the cable has carried the first
frames whole and of the next one the beginning. -/
structure Joined (trailer : List UInt8 → List UInt8) (packet : Fin descLen → Nat) (s : Cable)
    (queues : Queues) (driver : Driver) : Prop where
  sender : s.sender.Sound ∧ s.sender.Represents queues
  receiver : Receiver.Related packet s.receiver driver
  received : s.receiver.received <+: s.sender.wire.map (sealed trailer)
  arriving : s.receiver.arriving = [] ∨
    ∃ frame, s.atHand trailer = some frame ∧ s.receiver.arriving <+: frame ∧
      s.receiver.arriving.length < frame.length

/-- The frame at hand is the same when more frames are sent. -/
theorem atHand_mono {frame : List UInt8} {sender : Transmitter}
    (sent : s.sender.wire <+: sender.wire) (atHand : s.atHand trailer = some frame) :
    ({ s with sender } : Cable).atHand trailer = some frame := by
  rcases Option.map_eq_some_iff.mp atHand with ⟨raw, found, rfl⟩
  rcases sent with ⟨more, same⟩
  have within := (List.getElem?_eq_some_iff.mp found).1
  refine Option.map_eq_some_iff.mpr ⟨raw, ?_, rfl⟩
  change sender.wire[s.receiver.received.length]? = some raw
  rw [← same, List.getElem?_append_left within]
  exact found

theorem Joined.transmit (joined : s.Joined trailer packet queues driver) {event : TransmitEvent}
    {sender : Transmitter} (filled : s.sender.Filled event)
    (stepped : Transmitter.step s.sender event = some sender)
    (resolveAddress : UInt32 → Option (List UInt8)) :
    ∃ parts queues', Transmitter.Matching event parts ∧
      run (Queues.step resolveAddress) queues parts = some queues' ∧
      ({ s with sender } : Cable).Joined trailer packet queues' driver := by
  rcases (Transmitter.simulation resolveAddress).matched _ _ _ _ joined.sender filled stepped with
    ⟨parts, queues', part, ran, related⟩
  have sent := Transmitter.wire_prefix stepped
  refine ⟨parts, queues', part, ran, related, joined.receiver,
    joined.received.trans (sent.map _), ?_⟩
  rcases joined.arriving with none | ⟨frame, atHand, begun, more⟩
  · exact .inl none
  · exact .inr ⟨frame, atHand_mono sent atHand, begun, more⟩

/-- What arrives is the beginning of the frame at hand. -/
theorem Joined.begun (joined : s.Joined trailer packet queues driver) {frame : List UInt8}
    (atHand : s.atHand trailer = some frame) : s.receiver.arriving <+: frame := by
  rcases joined.arriving with none | ⟨frame', atHand', begun, _⟩
  · rw [none]
    exact List.nil_prefix
  · cases atHand.symm.trans atHand'
    exact begun

theorem prefix_snoc {first whole : List UInt8} {byte : UInt8} (begun : first <+: whole)
    (next : whole[first.length]? = some byte) : first ++ [byte] <+: whole := by
  rcases begun with ⟨rest, rfl⟩
  rw [List.getElem?_append_right (Nat.le_refl _), Nat.sub_self] at next
  cases rest with
  | nil => exact nomatch next
  | cons head rest =>
      cases next
      exact ⟨rest, by rw [List.append_assoc]; rfl⟩

theorem Joined.byte (joined : s.Joined trailer packet queues driver) {frame : List UInt8}
    {value : UInt8} {other : UInt32} (atHand : s.atHand trailer = some frame)
    (next : frame[s.receiver.arriving.length]? = some value)
    (fits : frame.length ≤ rxFragBufSz ∨ frame.length = 2 * rxFragBufSz)
    (room : s.receiver.rxProduceIndex + 1 ≠ s.receiver.rxConsumeIndex) :
    ∃ driver', ({ s with
      receiver := s.receiver.byte value
        (decide (s.receiver.arriving.length + 1 = frame.length)) other } : Cable).Joined
      trailer packet queues driver' := by
  have within := (List.getElem?_eq_some_iff.mp next).1
  have begun := prefix_snoc (joined.begun atHand) next
  have length : (s.receiver.arriving ++ [value]).length = s.receiver.arriving.length + 1 :=
    List.length_append
  by_cases last : s.receiver.arriving.length + 1 = frame.length
  · have admitted : s.receiver.Fits (.byte value true other) := by
      simp only [Receiver.Fits, if_true]
      rw [last]
      exact fits
    rcases (Receiver.simulation packet fun _ _ => 0).matched _ _ _ _ joined.receiver admitted
      (if_neg room) with ⟨_, driver', _, _, related⟩
    have whole : s.receiver.arriving ++ [value] = frame :=
      begun.eq_of_length (length.trans last)
    rcases Option.map_eq_some_iff.mp atHand with ⟨raw, found, rfl⟩
    refine ⟨driver', ?_⟩
    rw [decide_eq_true last]
    refine ⟨joined.sender, related, ?_, .inl (Receiver.arriving_byte _ _ _ _)⟩
    change (s.receiver.byte value true other).received <+: _
    rw [Receiver.received_byte, if_pos rfl, whole]
    rcases joined.received with ⟨rest, same⟩
    refine ⟨rest.tail, ?_⟩
    have there : (s.sender.wire.map (sealed trailer))[s.receiver.received.length]? =
        some (sealed trailer raw) := by
      rw [List.getElem?_map, found]
      rfl
    rw [← same, List.getElem?_append_right (Nat.le_refl _), Nat.sub_self] at there
    cases rest with
    | nil => exact nomatch there
    | cons head rest =>
        cases there
        rw [← same, List.append_assoc]
        rfl
  · have shorter : s.receiver.arriving.length + 1 < frame.length :=
      Nat.lt_of_le_of_ne within last
    have admitted : s.receiver.Fits (.byte value false other) := by
      simp only [Receiver.Fits, Bool.false_eq_true, if_false]
      rcases fits with short | double
      · unfold rxFragBufSz at short ⊢
        omega
      · rw [← double]
        exact shorter
    rcases (Receiver.simulation packet fun _ _ => 0).matched _ _ _ _ joined.receiver admitted
      (if_neg room) with ⟨_, driver', _, _, related⟩
    refine ⟨driver', ?_⟩
    rw [decide_eq_false last]
    refine ⟨joined.sender, related, ?_, .inr ⟨frame, ?_, ?_, ?_⟩⟩
    · change (s.receiver.byte value false other).received <+: _
      rw [Receiver.received_byte]
      exact joined.received
    · unfold Cable.atHand
      rw [Receiver.received_byte]
      exact atHand
    · rw [Receiver.arriving_byte]
      exact begun
    · rw [Receiver.arriving_byte]
      exact length.trans_lt shorter

theorem Joined.receive (joined : s.Joined trailer packet queues driver) {event : ReceiveEvent}
    {receiver : Receiver} (other : ∀ value last status, event ≠ .byte value last status)
    (stepped : Receiver.step s.receiver event = some receiver) :
    ∃ driver', ({ s with receiver } : Cable).Joined trailer packet queues driver' := by
  have admitted : s.receiver.Fits event := by
    cases event with
    | byte value last status => exact absurd rfl (other value last status)
    | _ => trivial
  rcases (Receiver.simulation packet fun _ _ => 0).matched _ _ _ _ joined.receiver admitted
    stepped with ⟨_, driver', _, _, related⟩
  rcases Receiver.received_step other stepped with ⟨received, arriving⟩
  refine ⟨driver', joined.sender, related, ?_, ?_⟩
  · change receiver.received <+: _
    rw [received]
    exact joined.received
  · change receiver.arriving = [] ∨ ∃ frame, _ ∧ receiver.arriving <+: frame ∧
      receiver.arriving.length < frame.length
    rw [arriving, Cable.atHand, received]
    exact joined.arriving

/-- What an event is for the queues of the sender. -/
def Matching : CableEvent → List QueueEvent → Prop
  | .transmit event, parts => Transmitter.Matching event parts
  | .byte _, parts | .receive _, parts => parts = []

/-- Each event is one of the sender's model, one of the receiver's, or none of them. -/
theorem simulation (trailer : List UInt8 → List UInt8) (packet : Fin descLen → Nat)
    (resolveAddress : UInt32 → Option (List UInt8)) :
    Simulation (step trailer) (Queues.step resolveAddress) (Fits trailer)
      (fun s queues => ∃ driver, s.Joined trailer packet queues driver) Matching := by
  refine ⟨fun s event target queues ⟨driver, joined⟩ fits stepped => ?_⟩
  cases event with
  | transmit event =>
      obtain ⟨sender, sent, rfl⟩ := Option.map_eq_some_iff.mp stepped
      rcases joined.transmit fits sent resolveAddress with ⟨parts, queues', part, ran, joined'⟩
      exact ⟨parts, queues', part, ran, driver, joined'⟩
  | byte other =>
      obtain ⟨frame, atHand, stepped⟩ := Option.bind_eq_some_iff.mp stepped
      obtain ⟨value, next, stepped⟩ := Option.bind_eq_some_iff.mp stepped
      obtain ⟨receiver, received, rfl⟩ := Option.map_eq_some_iff.mp stepped
      obtain ⟨room, ⟨⟩⟩ := Option.ite_none_left_eq_some.mp received
      exact ⟨[], queues, rfl, rfl, joined.byte atHand next (fits frame atHand) room⟩
  | receive event =>
      have other : ∀ value last status, event ≠ .byte value last status := by
        rintro value last status rfl
        exact nomatch stepped
      have taken : (Receiver.step s.receiver event).map (fun receiver =>
          ({ s with receiver } : Cable)) = some target := by
        cases event with
        | byte value last status => exact absurd rfl (other value last status)
        | _ => exact stepped
      obtain ⟨receiver, received, rfl⟩ := Option.map_eq_some_iff.mp taken
      exact ⟨[], queues, rfl, rfl, joined.receive other received⟩

end Invariant

/-- However two nodes and the cable between them go on, as long as no payload is empty and what
goes over the cable fits one fragment buffer or fills two: the queues of the one have a run in
which `ether_tx` is called with the same packets at the same places.  The packets that they
transmit are handed to `packet_inject` of the other, in this order, none lost, doubled or
changed but for what the hardware adds behind; and when the cable and the receive ring are
empty, all of them have been. -/
theorem carries_all {memory memory' : Bytes} {txDesc : Fin descLen → TxrxDescriptor}
    {rxStatus : Fin descLen → UInt32} {events : List CableEvent}
    (resolveAddress : UInt32 → Option (List UInt8))
    (apart : ∀ index index', index ≠ index' →
      Apart (packet index, rxFragBufSz) (packet index', rxFragBufSz))
    (fits : Guarded (step trailer) (Fits trailer) (start memory txDesc memory' packet rxStatus)
      events)
    (executed : run (step trailer) (start memory txDesc memory' packet rxStatus) events = some s) :
    ∃ parts queues, List.Forall₂ Matching events parts ∧
      run (Queues.step resolveAddress) Queues.empty parts.flatten = some queues ∧
      s.sender.Represents queues ∧
      (s.receiver.injected <+:
        queues.transmitted.map fun sent => sealed trailer (onWire sent.2)) ∧
      (s.atHand trailer = none → s.receiver.rxConsumeIndex = s.receiver.rxProduceIndex →
        s.receiver.injected =
          queues.transmitted.map fun sent => sealed trailer (onWire sent.2)) := by
  have initial : (start memory txDesc memory' packet rxStatus).Joined trailer packet
      Queues.empty (Emac.start default) :=
    ⟨⟨Transmitter.sound_start memory txDesc, Transmitter.represents_start memory txDesc⟩,
      Receiver.related_start memory' rxStatus apart, List.nil_prefix, .inl rfl⟩
  rcases (simulation trailer packet resolveAddress).exists_run ⟨_, initial⟩ fits executed with
    ⟨parts, queues, matched, ran, driver, joined⟩
  have wire : s.sender.wire.map (sealed trailer) =
      queues.transmitted.map fun sent => sealed trailer (onWire sent.2) := by
    rw [joined.sender.2.wire, List.map_map]
    rfl
  rcases joined.receiver.injected_prefix with ⟨injected, all⟩
  refine ⟨parts, queues, matched, ran, joined.sender.2, ?_, fun none empty => ?_⟩
  · rw [← wire]
    exact injected.trans joined.received
  · rw [all empty, ← wire]
    refine joined.received.eq_of_length_le ?_
    rw [List.length_map]
    exact List.getElem?_eq_none_iff.mp (Option.map_eq_none_iff.mp none)

/-- One byte is sent, comes padded, and the interrupt handles it. -/
def carriesOne : List CableEvent :=
  (.transmit (.etherTx Transmitter.oneByte 300 100) :: Transmitter.sendsOne.map .transmit) ++
    List.replicate 60 (.byte 0) ++ [.receive .enter, .receive (.round fun _ => 9), .receive .leave]

theorem carries_all_example :
    let pad := fun frame : List UInt8 => List.replicate (60 - frame.length) (0 : UInt8)
    ∃ s, run (step pad) (start (fun _ => 0) (fun _ => ⟨0, 0⟩) (fun _ => 0)
        (fun index => 128 * (index.val + 1)) fun _ => 0) carriesOne = some s ∧
      ∃ parts queues, List.Forall₂ Matching carriesOne parts ∧
        run (Queues.step fun _ => none) Queues.empty parts.flatten = some queues ∧
        s.sender.Represents queues ∧
        (s.receiver.injected <+:
          queues.transmitted.map fun sent => sealed pad (onWire sent.2)) ∧
        (s.atHand pad = none → s.receiver.rxConsumeIndex = s.receiver.rxProduceIndex →
          s.receiver.injected =
            queues.transmitted.map fun sent => sealed pad (onWire sent.2)) := by
  intro pad
  have ends : (run (step pad) (start (fun _ => 0) (fun _ => ⟨0, 0⟩) (fun _ => 0)
      (fun index => 128 * (index.val + 1)) fun _ => 0) carriesOne).isSome := by decide +kernel
  obtain ⟨s, executed⟩ := Option.isSome_iff_exists.mp ends
  refine ⟨s, executed, carries_all (fun _ => none) ?_ (by decide +kernel) executed⟩
  intro index index' differ
  have unequal : index.val ≠ index'.val := fun same => differ (Fin.ext same)
  unfold Apart rxFragBufSz
  omega

end Cable

end Lpc17xx.Emac
