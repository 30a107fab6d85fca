import Lpc17xx.Cbuf.Core
import Lpc17xx.Memory.Block
import Lpc17xx.Ring.Window
import Lpc17xx.Stream.Groups
import Lpc17xx.Transition.Labelled

/-!
# The receive interrupt of the Ethernet controller

The controller writes fragments into a ring of descriptors; `irq_enet` gathers
them into frames.  `current_frame` and `current_frame_len` are static, so a frame
that is not complete when the interrupt returns is continued by the next one.
`get_mem` always finds a block here; what the block holds is up to the heap.
-/

namespace Lpc17xx.Emac

open Lpc17xx.Cbuf
open Lpc17xx.Memory
open Lpc17xx.Stream
open Lpc17xx.Transition

/-- `DESC_LEN`. -/
def descLen : Nat := 12

/-- The number of bytes that a status word states. -/
def fragLen (statusInfo : UInt32) : Nat :=
  (statusInfo &&& 0x7FF).toNat + 1

/-- What the controller leaves in a descriptor: the bytes in its buffer and its
word of `rx_status`, which counts them. -/
structure Fragment where
  bytes : List UInt8
  statusInfo : UInt32
  counted : bytes.length = fragLen statusInfo
  deriving DecidableEq

instance : Inhabited Fragment :=
  ⟨⟨[0], 0, rfl⟩⟩

/-- The test for a full frame. -/
def Fragment.isLast (fragment : Fragment) : Bool :=
  (fragment.statusInfo &&& (1 : UInt32) <<< 30) ≠ 0

/-- The bytes of consecutive fragments. -/
def joined (fragments : List Fragment) : List UInt8 :=
  fragments.flatMap Fragment.bytes

/-- The controller's ring and indices, the statics of `irq_enet`, and the frames
handed to `packet_inject`.  `filled` and `consumed` are kept by nobody: all
fragments received, and how many of them have been gathered. -/
structure Driver where
  rxDesc : List Fragment
  rxProduceIndex : Nat
  rxConsumeIndex : Nat
  inIrq : Bool
  currentFrame : Option (List UInt8)
  currentFrameLen : Nat
  injected : List (List UInt8)
  filled : List Fragment
  consumed : Nat
  deriving DecidableEq

/-- The bytes that the heap holds when `get_mem` is called. -/
abbrev Heap :=
  Driver → Nat → UInt8

/-- `get_mem`. -/
def getMem (heap : Heap) (s : Driver) (size : Nat) : List UInt8 :=
  bytesAt (heap s) size

/-- "Gather the new fragment out of DMA memory": the frame's block and length
afterwards. -/
def gather (heap : Heap) (s : Driver) (statusInfo : UInt32) (frag : List UInt8) :
    List UInt8 × Nat :=
  let fragLen := fragLen statusInfo
  match s.currentFrame with
  | some currentFrame =>
      let newFrameBuf := getMem heap s (s.currentFrameLen + fragLen)
      let newFrameBuf := copyAt newFrameBuf 0 (currentFrame.take s.currentFrameLen)
      let newFrameBuf := copyAt newFrameBuf fragLen (frag.take fragLen)
      (newFrameBuf, s.currentFrameLen + fragLen)
  | none => (copyAt (getMem heap s fragLen) 0 (frag.take fragLen), fragLen)

/-- One round of the loop of `irq_enet`. -/
def gatherRound (heap : Heap) (s : Driver) : Driver :=
  let descIdx := s.rxConsumeIndex
  let desc := s.rxDesc.getD descIdx default
  let (frame, frameLen) := gather heap s desc.statusInfo desc.bytes
  let s := { s with
    rxConsumeIndex := (descIdx + 1) % descLen
    consumed := s.consumed + 1 }
  if desc.isLast then
    { s with
      currentFrame := none
      currentFrameLen := 0
      injected := s.injected ++ [frame.take frameLen] }
  else { s with currentFrame := some frame, currentFrameLen := frameLen }

/-- What happens: the controller fills a descriptor, the interrupt is entered,
makes one round of its loop, and returns. -/
inductive EmacEvent where
  | fill (fragment : Fragment)
  | enter
  | round
  | leave
  deriving DecidableEq

/-- One event.  The controller fills the descriptors in ring order and leaves
one free; the loop ends when nothing is left to gather. -/
def step (heap : Heap) : Step Driver EmacEvent
  | s, .fill fragment =>
      if (s.rxProduceIndex + 1) % descLen = s.rxConsumeIndex then none
      else some { s with
        rxDesc := s.rxDesc.set s.rxProduceIndex fragment
        rxProduceIndex := (s.rxProduceIndex + 1) % descLen
        filled := s.filled ++ [fragment] }
  | s, .enter => if s.inIrq then none else some { s with inIrq := true }
  | s, .round =>
      if s.inIrq ∧ s.rxConsumeIndex ≠ s.rxProduceIndex then some (gatherRound heap s) else none
  | s, .leave =>
      if s.inIrq ∧ s.rxConsumeIndex = s.rxProduceIndex then some { s with inIrq := false } else none

/-- The driver as `emac_init` leaves it.  The descriptors' contents are
`stale`. -/
def start (stale : Fragment) : Driver where
  rxDesc := List.replicate descLen stale
  rxProduceIndex := 0
  rxConsumeIndex := 0
  inIrq := false
  currentFrame := none
  currentFrameLen := 0
  injected := []
  filled := []
  consumed := 0

end Lpc17xx.Emac
