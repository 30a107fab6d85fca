import Lpc17xx.Cbuf.Stored
import Lpc17xx.Heap.Requested

/-!
# A bounded queue in a heap block

`circular_buf_init` takes a block from the heap.  From there on, pushes and pops are those
of a queue of bytes with a bound, and they stay inside the block.
-/

namespace Lpc17xx.Cbuf

open Lpc17xx.Heap
open Lpc17xx.Memory
open Lpc17xx.Transition

/-- A call of `circular_buf_push` or of `circular_buf_pop`. -/
inductive QueueCall where
  | push (data : Nat → UInt8) (len : UInt32)
  | pop (len : UInt32)

namespace QueueCall

/-- The call in memory. -/
def outcome (memory : Bytes) (cbuf : Stored) : QueueCall → Outcome
  | .push data len => cbuf.circularBufPush memory data len
  | .pop len => cbuf.circularBufPop memory len

/-- The call asks for no more than there is. -/
def Accepted (bound : Nat) (queue : List UInt8) : QueueCall → Prop
  | .push _ len => queue.length + len.toNat ≤ bound
  | .pop len => len.toNat ≤ queue.length

instance (bound : Nat) (queue : List UInt8) (call : QueueCall) :
    Decidable (call.Accepted bound queue) := by
  cases call with
  | push _ len => exact inferInstanceAs (Decidable (_ ≤ _))
  | pop len => exact inferInstanceAs (Decidable (_ ≤ _))

/-- What an accepted call hands out of the queue, and the queue it leaves. -/
def effect (queue : List UInt8) : QueueCall → List UInt8 × List UInt8
  | .push data len => ([], queue ++ bytesAt data len.toNat)
  | .pop len => (queue.take len.toNat, queue.drop len.toNat)

/-- The call on a queue of bounded length: all or nothing. -/
def onQueue (bound : Nat) (queue : List UInt8) (call : QueueCall) : List UInt8 × List UInt8 :=
  if call.Accepted bound queue then call.effect queue else ([], queue)

end QueueCall

/-- A buffer in memory beside the queue that it should be. -/
structure Beside where
  memory : Bytes
  cbuf : Stored
  queue : List UInt8

namespace Beside

/-- The same call on both. -/
def step (bound : Nat) : Step Beside QueueCall := fun s call =>
  let after := call.outcome s.memory s.cbuf
  some
    { memory := after.memory
      cbuf := after.cbuf
      queue := (call.onQueue bound s.queue).2 }

/-- The call does in memory what it does to the queue. -/
structure Agrees (bound : Nat) (s : Beside) (call : QueueCall) (s' : Beside) : Prop where
  popped : (call.outcome s.memory s.cbuf).popped = (call.onQueue bound s.queue).1
  usage : s'.cbuf.circularBufCurUsage.toNat = s'.queue.length
  capacity : s'.cbuf.circularBufCurCapacity.toNat = bound - s'.queue.length
  bounded : s'.queue.length ≤ bound
  place : s'.cbuf.buffer = s.cbuf.buffer ∧ s'.cbuf.bufSz = s.cbuf.bufSz
  head : s'.cbuf.Within s'.cbuf.head
  tail : s'.cbuf.Within s'.cbuf.tail
  touched : ∀ address ∈ (call.outcome s.memory s.cbuf).touched, s.cbuf.Within address
  frame : ∀ address, ¬s.cbuf.Within address → s'.memory address = s.memory address
  refused : ¬call.Accepted bound s.queue → s'.memory = s.memory ∧ s'.cbuf = s.cbuf

/-- The invariant: the buffer holds the queue. -/
structure Follows (bound : Nat) (s : Beside) : Prop where
  placed : s.cbuf.Placed
  live : (s.cbuf.view s.memory).Live
  size : s.cbuf.bufSz.toNat = bound
  contents : (s.cbuf.view s.memory).contents = s.queue

section Step

variable {bound : Nat} {s : Beside}

theorem Follows.usage (follows : s.Follows bound) :
    s.cbuf.circularBufCurUsage.toNat = s.queue.length := by
  rw [← follows.contents, CircularBuf.length_contents]
  exact follows.live.toNat_circularBufCurUsage

theorem Follows.capacity (follows : s.Follows bound) :
    s.cbuf.circularBufCurCapacity.toNat = bound - s.queue.length ∧ s.queue.length ≤ bound := by
  have used := follows.usage
  have free : s.cbuf.freeSpace.toNat ≤ s.cbuf.bufSz.toNat := follows.live.free_le
  have size := follows.size
  rw [Stored.circularBufCurUsage,
    UInt32.toNat_sub_of_le _ _ (UInt32.le_iff_toNat_le.mpr free)] at used
  rw [Stored.circularBufCurCapacity]
  omega

/-- The test of a push is that of the queue. -/
theorem Follows.push_fits_iff (follows : s.Follows bound) (len : UInt32) :
    len ≤ s.cbuf.freeSpace ↔ s.queue.length + len.toNat ≤ bound := by
  have room := follows.capacity
  rw [Stored.circularBufCurCapacity] at room
  rw [UInt32.le_iff_toNat_le]
  omega

theorem Follows.pop_held_iff (follows : s.Follows bound) (len : UInt32) :
    len ≤ s.cbuf.circularBufCurUsage ↔ len.toNat ≤ s.queue.length := by
  rw [UInt32.le_iff_toNat_le, follows.usage]

/-- What holds behind a call of a buffer that holds the queue. -/
theorem Follows.agrees {call : QueueCall} {s' : Beside} (taken : step bound s call = some s')
    (confined : Stored.Confined s.memory s.cbuf (call.outcome s.memory s.cbuf))
    (popped : (call.outcome s.memory s.cbuf).popped = (call.onQueue bound s.queue).1)
    (refused : ¬call.Accepted bound s.queue →
      (call.outcome s.memory s.cbuf).memory = s.memory ∧
        (call.outcome s.memory s.cbuf).cbuf = s.cbuf)
    (follows' : s'.Follows bound) : s.Agrees bound call s' := by
  cases taken
  exact {
    popped := popped
    usage := follows'.usage
    capacity := follows'.capacity.1
    bounded := follows'.capacity.2
    place := ⟨confined.buffer, confined.size⟩
    head := confined.placed.head
    tail := confined.placed.tail
    touched := confined.touched
    frame := confined.frame
    refused := refused }

theorem Follows.push (follows : s.Follows bound) {data : Nat → UInt8} {len : UInt32} {s' : Beside}
    (taken : step bound s (.push data len) = some s') :
    s'.Follows bound ∧ s.Agrees bound (.push data len) s' := by
  have fits := follows.push_fits_iff len
  rcases @Stored.circularBufPush_spec s.memory s.cbuf data len follows.placed with
    ⟨confined, nothing, same⟩
  by_cases accepted : (QueueCall.push data len).Accepted bound s.queue
  · rcases CircularBuf.circularBufPush_accepted data follows.live (fits.mpr accepted) with
      ⟨live, contents⟩
    have follows' : s'.Follows bound := by
      cases taken
      refine ⟨confined.placed, same ▸ live, (congrArg _ confined.size).trans follows.size, ?_⟩
      refine (congrArg CircularBuf.contents same).trans ?_
      rw [contents, follows.contents]
      simp only [QueueCall.onQueue, if_pos accepted, QueueCall.effect]
    refine ⟨follows', follows'.agrees taken confined ?_ (absurd accepted)⟩
    rw [QueueCall.onQueue, if_pos accepted]
    exact nothing
  · have full : s.cbuf.freeSpace < len := UInt32.not_le.mp (mt fits.mp accepted)
    have unchanged := @Stored.circularBufPush_refused s.memory s.cbuf data len full
    have follows' : s'.Follows bound := by
      cases taken
      simp only [QueueCall.outcome, unchanged, QueueCall.onQueue, if_neg accepted]
      exact follows
    refine ⟨follows', follows'.agrees taken confined ?_ fun _ => ?_⟩
    · rw [QueueCall.onQueue, if_neg accepted]
      exact nothing
    · rw [QueueCall.outcome, unchanged]
      exact ⟨rfl, rfl⟩

theorem Follows.pop (follows : s.Follows bound) {len : UInt32} {s' : Beside}
    (taken : step bound s (.pop len) = some s') :
    s'.Follows bound ∧ s.Agrees bound (.pop len) s' := by
  have held := follows.pop_held_iff len
  rcases @Stored.circularBufPop_spec s.memory s.cbuf len follows.placed with
    ⟨confined, kept, same⟩
  have read : (s.cbuf.circularBufPop s.memory len).popped =
      ((s.cbuf.view s.memory).circularBufPop len).1 := congrArg Prod.fst same
  have view : (s.cbuf.circularBufPop s.memory len).cbuf.view s.memory =
      ((s.cbuf.view s.memory).circularBufPop len).2 := congrArg Prod.snd same
  by_cases accepted : (QueueCall.pop len).Accepted bound s.queue
  · rcases CircularBuf.circularBufPop_accepted follows.live (held.mpr accepted) with
      ⟨taken', live, contents, _⟩
    have follows' : s'.Follows bound := by
      cases taken
      refine ⟨confined.placed, ?_, (congrArg _ confined.size).trans follows.size, ?_⟩
      · simp only [QueueCall.outcome, kept, view]
        exact live
      · simp only [QueueCall.outcome, kept, view, contents, follows.contents,
          QueueCall.onQueue, if_pos accepted, QueueCall.effect]
    refine ⟨follows', follows'.agrees taken confined ?_ (absurd accepted)⟩
    rw [QueueCall.onQueue, if_pos accepted, QueueCall.outcome, read, taken', follows.contents,
      QueueCall.effect]
  · have short : s.cbuf.circularBufCurUsage < len := UInt32.not_le.mp (mt held.mp accepted)
    have unchanged := @Stored.circularBufPop_refused s.memory s.cbuf len short
    have follows' : s'.Follows bound := by
      cases taken
      simp only [QueueCall.outcome, unchanged, QueueCall.onQueue, if_neg accepted]
      exact follows
    refine ⟨follows', follows'.agrees taken confined ?_ fun _ => ?_⟩
    · rw [QueueCall.onQueue, if_neg accepted, QueueCall.outcome, unchanged]
    · rw [QueueCall.outcome, unchanged]
      exact ⟨rfl, rfl⟩

theorem Follows.step (call : QueueCall) {s' : Beside} (follows : s.Follows bound)
    (taken : Beside.step bound s call = some s') : s'.Follows bound ∧ s.Agrees bound call s' := by
  cases call with
  | push data len => exact follows.push taken
  | pop len => exact follows.pop taken

end Step

section Init

variable {place : Place} {memory memory' : Bytes} {s : HeapState} {capacity : UInt32} {ptr : Nat}

/-- A block from the heap is below the end of memory. -/
theorem placed_circularBufInit {blocks : List Block} {nodes : List Nat}
    (rep : Represents place memory blocks nodes) {b : Block} (member : b ∈ blocks)
    (payload : b.payload = ptr) (positive : 0 < capacity.toNat)
    (room : capacity.toNat + 8 ≤ b.size) : (Stored.circularBufInit capacity ptr).Placed := by
  have bounds := rep.laid.bounds member
  have top := place.heapBelow
  rw [Place.memHeapEnd] at bounds
  rw [Block.payload] at payload
  have inside : (Stored.circularBufInit capacity ptr).Within ptr :=
    ⟨Nat.le_refl _, Nat.lt_add_of_pos_right positive⟩
  refine ⟨?_, inside, inside⟩
  change ptr + capacity.toNat < 2 ^ 32
  omega

/-- The circular buffer after `circular_buf_init` is the empty queue. -/
theorem follows_circularBufInit (placed : (Stored.circularBufInit capacity ptr).Placed)
    (positive : 0 < capacity) (memory : Bytes) :
    Follows capacity.toNat
      { memory := memory, cbuf := .circularBufInit capacity ptr, queue := [] } := by
  have same : (Stored.circularBufInit capacity ptr).view memory =
      Cbuf.circularBufInit capacity
        (bytesAt (fun offset => memory (ptr + offset)) capacity.toNat) := by
    simp [Stored.view, Stored.circularBufInit, Cbuf.circularBufInit]
  refine ⟨placed, ?_, rfl, ?_⟩
  · rw [same]
    exact CircularBuf.live_circularBufInit (length_bytesAt _ _) positive
  · rw [same]
    exact CircularBuf.contents_circularBufInit _ _

/-- From `circular_buf_init` on, on any heap and with any capacity it has room for, the
circular buffer is a queue of bytes of bounded length, and no call leaves the buffer. -/
theorem circularBuf_is_bounded_queue
    (reached : Reachable (HeapState.step place) (HeapState.start place memory) s)
    (positive : 0 < capacity) (got : place.getMem s.memory capacity = some (ptr, memory'))
    (satisfied : InPayload memory' ptr capacity) (calls : List QueueCall) :
    (Follows capacity.toNat
      { memory := memory', cbuf := .circularBufInit capacity ptr, queue := [] }) ∧
    Along (step capacity.toNat) (Agrees capacity.toNat)
      { memory := memory', cbuf := .circularBufInit capacity ptr, queue := [] } calls := by
  rcases HeapState.sound_of_reachable reached with ⟨blocks, nodes, holds⟩
  have notZero : capacity ≠ 0 := by
    rintro rfl
    exact absurd positive (by decide)
  rcases getMem_spec holds.rep holds.coalesced notZero got with
    ⟨a, blocks', nodes', rep, _, live, rfl, _, _⟩
  have member := (mem_liveBlocks.mp (live.symm.subset List.mem_cons_self)).1
  have placed := placed_circularBufInit rep member rfl (UInt32.lt_iff_toNat_lt.mp positive)
    ((inPayload_iff rep member).mp satisfied)
  have initial := follows_circularBufInit placed positive memory'
  refine ⟨initial, along_of_invariant ?_ ?_ initial calls⟩
  · intro s call s' follows taken
    exact (Follows.step call follows taken).1
  · intro s call s' follows taken
    exact (Follows.step call follows taken).2

/-- A block of four bytes from the heap of `linker.ld`. -/
def fourBytes : Option (Nat × Bytes) :=
  HeapState.linkedPlace.getMem (HeapState.start HeapState.linkedPlace fun _ => 0).memory 4

theorem fourBytes_isSome : fourBytes.isSome := by
  decide +kernel

theorem circularBuf_is_bounded_queue_fourBytes :
    Along (step 4) (Agrees 4)
      { memory := (fourBytes.get fourBytes_isSome).2
        cbuf := .circularBufInit 4 (fourBytes.get fourBytes_isSome).1
        queue := [] }
      [.push (fun i => UInt8.ofNat i) 3, .pop 2, .push (fun i => UInt8.ofNat i) 3, .pop 4] :=
  (circularBuf_is_bounded_queue ⟨[], rfl⟩ (by decide) (Option.some_get fourBytes_isSome).symm
    (by decide +kernel) _).2

end Init

end Beside

end Lpc17xx.Cbuf
