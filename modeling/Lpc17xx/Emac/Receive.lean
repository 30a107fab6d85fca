import Lpc17xx.Emac.Transmit
import Lpc17xx.Memory.Range

/-!
# The receive ring of the Ethernet controller

The controller stores the bytes of a frame in the fragment buffers that `emac_init`
allocated, one after the other, and `irq_enet` copies them out of memory.  Here the
descriptors and their buffers are in memory, byte by byte; `Lpc17xx.Emac.Core` has the
same ring with whole fragments.
-/

namespace Lpc17xx.Emac

open Lpc17xx.Cbuf
open Lpc17xx.Memory
open Lpc17xx.Transition

/-- `RX_FRAG_BUF_SZ`. -/
def rxFragBufSz : Nat := 127

/-- The descriptor that `emac_init` sets up for a fragment buffer. -/
def rxDescriptor (packet : Nat) : TxrxDescriptor :=
  ⟨packet, (126 : UInt32) ||| (1 : UInt32) <<< 31⟩

/-- What the controller writes to `rx_status` behind a fragment: its size less one, the
LAST bit, and other bits that nobody reads. -/
def statusWord (other : UInt32) (size : Nat) (last : Bool) : UInt32 :=
  (other &&& (0xBFFFF800 : UInt32)) ||| .ofNat (size - 1) |||
    (if last then (1 : UInt32) <<< 30 else 0)

/-- The fragment buffers, the descriptors and the indices, the controller with the number
of bytes that it has put in the buffer at hand, and the statics of `irq_enet`.  `arriving`
and `received` are kept by nobody: what has come of the frame at hand, and the frames that
have come whole. -/
structure Receiver where
  memory : Bytes
  rxDesc : Fin descLen → TxrxDescriptor
  rxStatus : Fin descLen → UInt32
  rxProduceIndex : Fin descLen
  rxConsumeIndex : Fin descLen
  offset : Nat
  inIrq : Bool
  currentFrame : Option (List UInt8)
  currentFrameLen : Nat
  injected : List (List UInt8)
  arriving : List UInt8
  received : List (List UInt8)

/-- What can happen: a byte of a frame comes in, the interrupt is entered, makes one round
of its loop with the block that `get_mem` returns, and returns, or the rest of the program
writes to memory of its own. -/
inductive ReceiveEvent where
  | byte (byte : UInt8) (last : Bool) (other : UInt32)
  | enter
  | round (block : Nat → UInt8)
  | leave
  | write (address : Nat) (byte : UInt8)

namespace Receiver

/-- The blocks of the fragment buffers. -/
def buffers (s : Receiver) : List (Nat × Nat) :=
  (List.finRange descLen).map fun index => ((s.rxDesc index).packet, rxFragBufSz)

/-- Where the controller puts the next byte. -/
def storeAddress (s : Receiver) : Nat :=
  (s.rxDesc s.rxProduceIndex).packet + s.offset

/-- The controller stores a byte.  When the buffer is full or the frame ends, it writes the
status and goes on to the next descriptor. -/
def byte (s : Receiver) (byte : UInt8) (last : Bool) (other : UInt32) : Receiver :=
  let desc := s.rxDesc s.rxProduceIndex
  let arriving := s.arriving ++ [byte]
  let s := { s with
    memory := Function.update s.memory s.storeAddress byte
    arriving := if last then [] else arriving
    received := if last then s.received ++ [arriving] else s.received }
  if s.offset + 1 < desc.size ∧ last = false then { s with offset := s.offset + 1 }
  else
    { s with
      offset := 0
      rxStatus := Function.update s.rxStatus s.rxProduceIndex
        (statusWord other (s.offset + 1) last)
      rxProduceIndex := s.rxProduceIndex + 1 }

theorem memory_byte (s : Receiver) (value : UInt8) (last : Bool) (other : UInt32) :
    (s.byte value last other).memory = Function.update s.memory s.storeAddress value :=
  (apply_ite Receiver.memory _ _ _).trans (ite_self _)

/-- What the buffer at `index` and its status hold. -/
def fragmentAt (s : Receiver) (index : Fin descLen) : Fragment where
  bytes := bytesAt (fun i => s.memory ((s.rxDesc index).packet + i)) (fragLen (s.rxStatus index))
  statusInfo := s.rxStatus index
  counted := by simp [bytesAt]

/-- The statics of `irq_enet`, which is all that `gather` reads. -/
def statics (s : Receiver) : Driver :=
  { start default with currentFrame := s.currentFrame, currentFrameLen := s.currentFrameLen }

/-- One round of the loop of `irq_enet`. -/
def round (s : Receiver) (block : Nat → UInt8) : Receiver :=
  let descIdx := s.rxConsumeIndex
  let desc := s.fragmentAt descIdx
  let (frame, frameLen) := gather (fun _ => block) s.statics desc.statusInfo desc.bytes
  let s := { s with rxConsumeIndex := descIdx + 1 }
  if desc.isLast then
    { s with
      currentFrame := none
      currentFrameLen := 0
      injected := s.injected ++ [frame.take frameLen] }
  else { s with currentFrame := some frame, currentFrameLen := frameLen }

theorem memory_round (s : Receiver) (block : Nat → UInt8) : (s.round block).memory = s.memory :=
  (apply_ite Receiver.memory _ _ _).trans (ite_self _)

/-- One event.  The controller leaves one descriptor free, and the rest of the program does
not write to the fragment buffers. -/
def step : Step Receiver ReceiveEvent
  | s, .byte byte last other =>
      if s.rxProduceIndex + 1 = s.rxConsumeIndex then none else some (s.byte byte last other)
  | s, .enter => if s.inIrq then none else some { s with inIrq := true }
  | s, .round block =>
      if s.inIrq ∧ s.rxConsumeIndex ≠ s.rxProduceIndex then some (s.round block) else none
  | s, .leave =>
      if s.inIrq ∧ s.rxConsumeIndex = s.rxProduceIndex then some { s with inIrq := false } else none
  | s, .write address byte =>
      if Outside s.buffers address then
        some { s with memory := Function.update s.memory address byte }
      else none

/-- The receiver as `emac_init` leaves it, with these fragment buffers. -/
def start (memory : Bytes) (packet : Fin descLen → Nat) (rxStatus : Fin descLen → UInt32) :
    Receiver where
  memory
  rxDesc := fun index => rxDescriptor (packet index)
  rxStatus
  rxProduceIndex := 0
  rxConsumeIndex := 0
  offset := 0
  inIrq := false
  currentFrame := none
  currentFrameLen := 0
  injected := []
  arriving := []
  received := []

end Receiver

end Lpc17xx.Emac
