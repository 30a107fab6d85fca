import Lpc17xx.System.Memory
import Lpc17xx.Emac.ReceiveRuns
import Lpc17xx.Heap.Division

/-!
# The heap and the receive ring in one memory

From `emac_init` on, the controller stores to blocks of the heap at any time, between any
two calls of the allocator.  Neither is in the way of the other.
-/

namespace Lpc17xx.Emac.Receiver

open Lpc17xx.Memory
open Lpc17xx.Transition

variable {s : Receiver}

end Lpc17xx.Emac.Receiver

namespace Lpc17xx.System

open Lpc17xx.Emac
open Lpc17xx.Heap
open Lpc17xx.Memory
open Lpc17xx.Transition
open Lpc17xx.Tcp (memHeapSize)

/-- The receiver with all of memory, and the live pointers of the heap. -/
structure Machine where
  receiver : Receiver
  live : List (Nat × UInt32)

/-- A call of the allocator or a write of the program, or what happens to the receiver. -/
inductive MachineEvent where
  | heap (event : HeapEvent)
  | receive (event : ReceiveEvent)

namespace Machine

/-- The heap of the machine. -/
def heap (m : Machine) : HeapState where
  memory := m.receiver.memory
  live := m.live

/-- What a step of the heap leaves of the machine. -/
def withHeap (m : Machine) (heap : HeapState) : Machine where
  receiver := { m.receiver with memory := heap.memory }
  live := heap.live

/-- One event.  Every write of the program is an event of the heap. -/
def step (place : Place) : Step Machine MachineEvent
  | m, .heap event => (HeapState.step place m.heap event).map m.withHeap
  | _, .receive (.write _ _) => none
  | m, .receive event => (Receiver.step m.receiver event).map fun receiver =>
      { m with receiver }

/-- The heap and the receiver when `emac_init` returns. -/
def emacInit (place : Place) (memory : Bytes) (rxStatus : Fin descLen → UInt32) :
    Option Machine :=
  (run (HeapState.step place) (HeapState.start place memory)
    (emacInitRequests.map HeapEvent.getMem)).map fun heap =>
      { receiver := Receiver.start heap.memory (fun index => fragmentBuffer place index) rxStatus
        live := heap.live }

/-- The program does not free a fragment buffer or write to it, and the frames that come in
fit one buffer, or fill two. -/
def Admits (place : Place) (m : Machine) : MachineEvent → Prop
  | .heap (.getMem _) => True
  | .heap (.freeMem ptr) => ∀ index : Fin descLen, ptr ≠ fragmentBuffer place index
  | .heap (.write address _) => Outside m.receiver.buffers address
  | .receive event => m.receiver.Fits event

instance (place : Place) (m : Machine) : DecidablePred (m.Admits place)
  | .heap (.getMem _) => inferInstanceAs (Decidable True)
  | .heap (.freeMem ptr) =>
      inferInstanceAs (Decidable (∀ index : Fin descLen, ptr ≠ fragmentBuffer place index))
  | .heap (.write address _) => inferInstanceAs (Decidable (Outside m.receiver.buffers address))
  | .receive event => inferInstanceAs (Decidable (m.receiver.Fits event))

variable {place : Place} {m m' : Machine} {driver : Driver} {event : MachineEvent}

section Heap

variable {s s' : HeapState} {blocks : List Block} {nodes : List Nat} {entry : Nat × UInt32}
  {i : Nat}

theorem memBlockSize_of_live (holds : s.Holds place blocks nodes) {b : Block}
    (held : b ∈ liveBlocks blocks) :
    (memBlockSize s.memory (memBlockFromPayload b.payload)).toNat = b.size := by
  have inside := (mem_liveBlocks.mp held).1
  rw [memBlockFromPayload_payload, memBlockSize_eq (holds.rep.tagged b inside),
    toNat_ofNat_size (size_le holds.rep.laid inside)]

/-- A live block has room for what was asked for. -/
theorem inside_of_live (holds : s.Holds place blocks nodes) (member : entry ∈ s.live)
    (bound : entry.2.toNat ≤ memHeapSize) (within : i < entry.2.toNat) :
    entry.1 + i + 8 <
      entry.1 + (memBlockSize s.memory (memBlockFromPayload entry.1)).toNat := by
  rcases holds.room entry member bound with ⟨b, held, payload, room⟩
  rw [← payload, memBlockSize_of_live holds held]
  omega

end Heap

section Invariant

/-- What holds between any two events: the fragment buffers stay allocated. -/
structure Joint (place : Place) (m : Machine) (driver : Driver) : Prop where
  sound : m.heap.Sound place
  held : ∀ index : Fin descLen, (fragmentBuffer place index, 127) ∈ m.live
  related : Receiver.Related (fun index => fragmentBuffer place index) m.receiver driver

/-- The bytes of the fragment buffers are the program's to write, not the allocator's. -/
theorem writable_of_held {s : HeapState} {blocks : List Block} {nodes : List Nat}
    (holds : s.Holds place blocks nodes) {index : Fin descLen}
    (held : (fragmentBuffer place index, 127) ∈ s.live) {i : Nat} (within : i < rxFragBufSz) :
    s.Writable place (fragmentBuffer place index + i) :=
  .inl ⟨_, held, Nat.le_add_right _ _,
    inside_of_live holds held (show (127 : UInt32).toNat ≤ memHeapSize by decide) within⟩

theorem Joint.keepsBuffers (joint : m.Joint place driver) {heap : HeapState}
    {blocks : List Block} (kept : Keeps place blocks m.receiver.memory heap.memory)
    (foreign : ∀ index : Fin descLen, ∀ i < rxFragBufSz,
      Foreign place blocks (fragmentBuffer place index + i)) :
    m.receiver.KeepsBuffers heap.memory := by
  intro index i within
  have packet : (m.receiver.rxDesc index).packet = fragmentBuffer place index := by
    rw [joint.related.sound.desc]
    rfl
  rw [packet]
  exact kept _ (foreign index i within)

/-- The calls of the allocator leave the fragment buffers alone. -/
theorem Joint.heap (joint : m.Joint place driver) {event : HeapEvent} {heap : HeapState}
    (admitted : m.Admits place (.heap event))
    (taken : HeapState.step place m.heap event = some heap) :
    (m.withHeap heap).Joint place driver := by
  have sound := HeapState.sound_step _ _ _ joint.sound taken
  rcases joint.sound with ⟨blocks, nodes, holds⟩
  cases event with
  | getMem size =>
      rcases holds.getMem taken with ⟨_, _, _, kept⟩
      refine ⟨sound, fun index => ?_, joint.related.frame (joint.keepsBuffers kept
        fun index i within => holds.foreign (writable_of_held holds (joint.held index) within))⟩
      rcases Option.map_eq_some_iff.mp taken with ⟨⟨ptr, memory⟩, _, rfl⟩
      change _ ∈ if ptr = 0 then m.live else (ptr, size) :: m.live
      split
      · exact joint.held index
      · exact List.mem_cons_of_mem _ (joint.held index)
  | freeMem ptr =>
      rcases holds.freeMem taken with ⟨_, _, holds', kept⟩
      rcases Option.ite_none_right_eq_some.mp taken with ⟨_, freed⟩
      cases freed
      have held (index : Fin descLen) :
          (fragmentBuffer place index, 127) ∈ m.live.filter fun entry => entry.1 ≠ ptr :=
        List.mem_filter.mpr ⟨joint.held index, decide_eq_true (admitted index).symm⟩
      exact ⟨sound, held, joint.related.frame (joint.keepsBuffers kept
        fun index i within => holds'.foreign (writable_of_held holds' (held index) within))⟩
  | write address byte =>
      rcases Option.ite_none_right_eq_some.mp taken with ⟨_, written⟩
      cases written
      exact ⟨sound, joint.held,
        joint.related.frame (Receiver.keepsBuffers_update admitted byte)⟩

theorem Joint.storeAddress (joint : m.Joint place driver) :
    m.receiver.storeAddress =
      fragmentBuffer place m.receiver.rxProduceIndex + m.receiver.offset := by
  rw [Receiver.storeAddress, joint.related.sound.desc]
  rfl

/-- What the receiver does is a write to a live block, or nothing to memory at all. -/
theorem Joint.receive (joint : m.Joint place driver) {event : ReceiveEvent} {receiver : Receiver}
    (other : ∀ address value, event ≠ .write address value)
    (taken : Receiver.step m.receiver event = some receiver) :
    HeapState.Sound place ⟨receiver.memory, m.live⟩ := by
  cases event with
  | byte value last status =>
      obtain ⟨_, ⟨⟩⟩ := Option.ite_none_left_eq_some.mp taken
      rw [Receiver.memory_byte]
      rcases joint.sound with ⟨blocks, nodes, holds⟩
      refine HeapState.sound_step m.heap (.write m.receiver.storeAddress value) _ joint.sound
        (if_pos ?_)
      rw [joint.storeAddress]
      exact writable_of_held holds (joint.held _) joint.related.sound.offset
  | enter =>
      obtain ⟨_, ⟨⟩⟩ := Option.ite_none_left_eq_some.mp taken
      exact joint.sound
  | round block =>
      obtain ⟨_, ⟨⟩⟩ := Option.ite_none_right_eq_some.mp taken
      rw [Receiver.memory_round]
      exact joint.sound
  | leave =>
      obtain ⟨_, ⟨⟩⟩ := Option.ite_none_right_eq_some.mp taken
      exact joint.sound
  | write address value => exact absurd rfl (other address value)

theorem Joint.step (joint : m.Joint place driver) (admitted : m.Admits place event)
    (taken : Machine.step place m event = some m') : ∃ driver', m'.Joint place driver' := by
  cases event with
  | heap event =>
      rcases Option.map_eq_some_iff.mp taken with ⟨heap, stepped, rfl⟩
      exact ⟨driver, joint.heap admitted stepped⟩
  | receive event =>
      have other : ∀ address value, event ≠ .write address value := by
        rintro address value rfl
        cases taken
      have stepped : (Receiver.step m.receiver event).map (fun receiver =>
          ({ m with receiver } : Machine)) = some m' := by
        cases event with
        | write address value => exact absurd rfl (other address value)
        | _ => exact taken
      rcases Option.map_eq_some_iff.mp stepped with ⟨receiver, received, rfl⟩
      rcases (Receiver.simulation _ fun _ _ => 0).matched _ _ _ _ joint.related admitted received
        with ⟨_, driver', _, _, related⟩
      exact ⟨driver', joint.receive other received, joint.held, related⟩

end Invariant

section Runs

variable {memory : Bytes} {rxStatus : Fin descLen → UInt32}

end Runs

end Machine

end Lpc17xx.System
