import Lpc17xx.Cbuf.Bounded

/-!
# From `circular_buf_init` to `circular_buf_free` and on

All four functions that change a buffer, on a heap and in any order.  `circular_buf_free`
clears every field but `free_space`, so a buffer that was not full when it was freed has
more free space than bytes, and takes what is pushed through a `NULL` pointer.
-/

namespace Lpc17xx.Cbuf

open Lpc17xx.Heap
open Lpc17xx.Memory
open Lpc17xx.Transition

/-- A call on a buffer. -/
inductive CbufCall where
  | init (capacity : UInt32)
  | queue (call : QueueCall)
  | free

/-- The heap, and a buffer. -/
structure Buffered where
  heap : HeapState
  cbuf : Stored

namespace Buffered

/-- A buffer as `memset` leaves it, before `circular_buf_init`. -/
def zeroed : Stored where
  buffer := 0
  head := 0
  tail := 0
  bufSz := 0
  freeSpace := 0

section Code

variable (place : Place)

/-- `circular_buf_init`. -/
def init (s : Buffered) (capacity : UInt32) : Option Buffered :=
  (place.getMem s.heap.memory capacity).map fun (ptr, memory) =>
    { heap :=
        { memory
          live := if ptr = 0 then s.heap.live else (ptr, capacity) :: s.heap.live }
      cbuf := .circularBufInit capacity ptr }

/-- `circular_buf_free`. -/
def free (s : Buffered) : Buffered where
  heap :=
    { memory := place.freeMem s.heap.memory s.cbuf.buffer
      live := s.heap.live.filter fun entry => entry.1 ≠ s.cbuf.buffer }
  cbuf := s.cbuf.circularBufFree

/-- One call.  A call of `circular_buf_init` on an exhausted heap does not return. -/
def step : Step Buffered CbufCall
  | s, .init capacity => s.init place capacity
  | s, .queue call =>
      let after := call.outcome s.heap.memory s.cbuf
      some { heap := { s.heap with memory := after.memory }, cbuf := after.cbuf }
  | s, .free => some (s.free place)

end Code

/-- The addresses that a call writes to or reads through `head` and `tail`. -/
def touched (s : Buffered) : CbufCall → List Nat
  | .queue call => (call.outcome s.heap.memory s.cbuf).touched
  | _ => []

/-- The address is one of the buffer, and in the payload of its block, which is live. -/
def InLive (s : Buffered) (address : Nat) : Prop :=
  s.cbuf.buffer ∈ s.heap.live.map Prod.fst ∧ s.cbuf.Within address ∧
    address + 4 < memBlockEnd s.heap.memory (memBlockFromPayload s.cbuf.buffer)

/-- After the call the counters agree, and it has touched a live buffer only. -/
structure Kept (s : Buffered) (call : CbufCall) (s' : Buffered) : Prop where
  counters : s'.cbuf.freeSpace ≤ s'.cbuf.bufSz
  usage : s'.cbuf.circularBufCurUsage.toNat + s'.cbuf.freeSpace.toNat = s'.cbuf.bufSz.toNat
  live : ∀ address ∈ s.touched call, s.InLive address
  freed : call = .free →
    s'.cbuf.circularBufCurUsage = 0 ∧ s'.cbuf.circularBufCurCapacity = 0

/-- The buffer is freed when it has no free space left. -/
def FreedFull (s : Buffered) (call : CbufCall) : Prop :=
  call = .free → s.cbuf.freeSpace = 0

/-- A buffer that holds nothing and can take nothing. -/
structure Empty (cbuf : Stored) : Prop where
  buffer : cbuf.buffer = 0
  size : cbuf.bufSz = 0
  free : cbuf.freeSpace = 0

/-- A buffer that holds a queue, in a live block. -/
structure Owns (memory : Bytes) (cbuf : Stored) (b : Block) (queue : List UInt8) : Prop where
  follows : Beside.Follows cbuf.bufSz.toNat { memory, cbuf, queue }
  payload : b.payload = cbuf.buffer
  room : cbuf.bufSz.toNat + 8 ≤ b.size

/-- The invariant. -/
def Consistent (place : Place) (s : Buffered) : Prop :=
  ∃ blocks nodes, s.heap.Holds place blocks nodes ∧
    (Empty s.cbuf ∨ ∃ b ∈ liveBlocks blocks, ∃ queue, Owns s.heap.memory s.cbuf b queue)

variable {place : Place} {s s' : Buffered}

section Empty

variable {cbuf : Stored} {memory : Bytes}

/-- Nothing is done with an empty buffer. -/
theorem Empty.outcome (empty : Empty cbuf) (call : QueueCall) :
    call.outcome memory cbuf = { memory, cbuf, popped := [], touched := [] } := by
  have free := empty.free
  have size := empty.size
  cases call with
  | push data len =>
      by_cases some' : cbuf.freeSpace < len
      · exact if_pos some'
      · rw [free, UInt32.not_lt] at some'
        have none : len = 0 := UInt32.le_zero_iff.mp some'
        subst none
        rw [QueueCall.outcome, Stored.circularBufPush, if_neg (by rw [free]; decide)]
        simp [bytesAt, Stored.pushLoop]
  | pop len =>
      by_cases some' : cbuf.bufSz - cbuf.freeSpace < len
      · exact if_pos some'
      · rw [free, size, UInt32.not_lt] at some'
        have none : len = 0 := UInt32.le_zero_iff.mp some'
        subst none
        rw [QueueCall.outcome, Stored.circularBufPop, if_neg (by rw [free, size]; decide)]
        simp [Stored.popLoop]

theorem Empty.kept {call : CbufCall} (empty : Empty s'.cbuf)
    (live : ∀ address ∈ s.touched call, s.InLive address) : s.Kept call s' where
  counters := by
    rw [empty.free, empty.size]
    exact UInt32.le_refl 0
  usage := by
    rw [Stored.circularBufCurUsage, empty.free, empty.size]
    rfl
  live := live
  freed := by
    intro _
    rw [Stored.circularBufCurUsage, Stored.circularBufCurCapacity, empty.free, empty.size]
    exact ⟨rfl, rfl⟩

end Empty

section Owns

variable {b : Block} {queue : List UInt8}

/-- A buffer with a queue has counters that agree. -/
theorem Owns.kept {call : CbufCall} (owns : Owns s'.heap.memory s'.cbuf b queue)
    (live : ∀ address ∈ s.touched call, s.InLive address) (notFree : call ≠ .free) :
    s.Kept call s' := by
  have used : s'.cbuf.circularBufCurUsage.toNat = queue.length := owns.follows.usage
  have room : s'.cbuf.freeSpace.toNat = s'.cbuf.bufSz.toNat - queue.length ∧
      queue.length ≤ s'.cbuf.bufSz.toNat := owns.follows.capacity
  exact {
    counters := by
      rw [UInt32.le_iff_toNat_le]
      omega
    usage := by omega
    live := live
    freed := fun same => absurd same notFree }

/-- The bytes of the buffer are those of a client. -/
theorem Owns.foreign {cbuf : Stored} {memory : Bytes} {blocks : List Block}
    (owns : Owns memory cbuf b queue) (held : b ∈ liveBlocks blocks) {address : Nat}
    (within : cbuf.Within address) : Foreign place blocks address := by
  rcases mem_liveBlocks.mp held with ⟨inside, allocated⟩
  rcases within with ⟨low, high⟩
  have payload := owns.payload
  have room := owns.room
  refine .inl ⟨b, inside, allocated, ?_, ?_⟩
  · rw [payload]
    exact low
  · rw [Block.payload] at payload
    omega

theorem Owns.inLive {blocks : List Block} {nodes : List Nat}
    (holds : s.heap.Holds place blocks nodes) (held : b ∈ liveBlocks blocks)
    (owns : Owns s.heap.memory s.cbuf b queue) {address : Nat}
    (within : s.cbuf.Within address) : s.InLive address := by
  rcases mem_liveBlocks.mp held with ⟨inside, _⟩
  have payload := owns.payload
  have room := owns.room
  refine ⟨?_, within, ?_⟩
  · rw [← payload]
    exact holds.live.symm.subset (List.mem_map_of_mem held)
  · rw [← payload, memBlockFromPayload_payload,
      memBlockEnd_eq (size_le holds.rep.laid inside) (holds.rep.tagged b inside)]
    have high := within.2
    rw [Block.payload] at payload
    omega

end Owns

section Steps

/-- A block is asked for that can be rounded up, and the buffer is in it. -/
theorem Consistent.init {capacity : UInt32} (consistent : s.Consistent place)
    (sized : capacity.toNat ≤ maxRequest) (taken : s.init place capacity = some s') :
    s'.Consistent place ∧ s.Kept (.init capacity) s' := by
  rcases consistent with ⟨blocks, nodes, holds, _⟩
  rcases Option.map_eq_some_iff.mp taken with ⟨⟨ptr, memory⟩, got, rfl⟩
  rcases holds.getMem (Option.map_eq_some_iff.mpr ⟨_, got, rfl⟩) with
    ⟨blocks', nodes', holds', _⟩
  have untouched : ∀ address ∈ s.touched (.init capacity), s.InLive address := by
    intro address touched
    contradiction
  by_cases zero : capacity = 0
  · subst zero
    rw [getMem_zero] at got
    cases got
    have empty : Empty (.circularBufInit 0 0) := ⟨rfl, rfl, rfl⟩
    exact ⟨⟨blocks', nodes', holds', .inl empty⟩, empty.kept untouched⟩
  · rcases getMem_spec holds.rep holds.coalesced zero got with
      ⟨a, _, _, _, _, _, payload, _, _⟩
    have notNull : ptr ≠ 0 := by
      rw [← payload]
      exact Nat.succ_ne_zero _
    have inPayload : InPayload memory ptr capacity :=
      (hasRoom_iff holds.rep holds.coalesced zero).mpr (.inl sized) _ _ got notNull
    have member : ptr ∈ (if ptr = 0 then s.heap.live else
        (ptr, capacity) :: s.heap.live).map Prod.fst := by
      rw [if_neg notNull]
      exact List.mem_cons_self
    rcases holds'.block member with ⟨b, held, same⟩
    have inside := (mem_liveBlocks.mp held).1
    have positive : 0 < capacity := UInt32.pos_iff_ne_zero.mpr zero
    rw [← same] at inPayload
    have room := (inPayload_iff holds'.rep inside).mp inPayload
    have placed := Beside.placed_circularBufInit holds'.rep inside same
      (UInt32.lt_iff_toNat_lt.mp positive) room
    have owns : Owns memory (.circularBufInit capacity ptr) b [] :=
      ⟨Beside.follows_circularBufInit placed positive memory, same, room⟩
    refine ⟨⟨blocks', nodes', holds', .inr ⟨b, held, [], owns⟩⟩, owns.kept untouched ?_⟩
    intro same
    contradiction

theorem Consistent.queue {call : QueueCall} (consistent : s.Consistent place)
    (taken : step place s (.queue call) = some s') :
    s'.Consistent place ∧ s.Kept (.queue call) s' := by
  rcases consistent with ⟨blocks, nodes, holds, empty | ⟨b, held, queue, owns⟩⟩
  · have nothing := @Empty.outcome _ s.heap.memory empty call
    have same : s' = s := by
      simp only [step, nothing, Option.some.injEq] at taken
      exact taken.symm
    subst same
    refine ⟨⟨blocks, nodes, holds, .inl empty⟩, empty.kept ?_⟩
    intro address touched
    rw [Buffered.touched, nothing] at touched
    contradiction
  · rcases Beside.Follows.step call owns.follows rfl with ⟨follows, agrees⟩
    cases taken
    have kept (address : Nat) (own : ¬Foreign place blocks address) :
        (call.outcome s.heap.memory s.cbuf).memory address = s.heap.memory address :=
      agrees.frame address fun within => own (owns.foreign held within)
    have size : (call.outcome s.heap.memory s.cbuf).cbuf.bufSz = s.cbuf.bufSz := agrees.place.2
    have owns' : Owns (call.outcome s.heap.memory s.cbuf).memory
        (call.outcome s.heap.memory s.cbuf).cbuf b
        (call.onQueue s.cbuf.bufSz.toNat queue).2 := by
      refine ⟨?_, owns.payload.trans agrees.place.1.symm, ?_⟩
      · rw [size]
        exact follows
      · rw [size]
        exact owns.room
    refine ⟨⟨blocks, nodes, ⟨holds.rep.congr kept, holds.coalesced, holds.live, holds.room⟩,
      .inr ⟨b, held, _, owns'⟩⟩, owns'.kept ?_ ?_⟩
    · intro address touched
      exact owns.inLive holds held (agrees.touched address touched)
    · intro same
      contradiction

/-- A full buffer leaves an empty one. -/
theorem Consistent.free (consistent : s.Consistent place) (full : s.cbuf.freeSpace = 0) :
    (s.free place).Consistent place ∧ s.Kept .free (s.free place) := by
  rcases consistent with ⟨blocks, nodes, holds, buffer⟩
  have live : s.cbuf.buffer = 0 ∨ s.cbuf.buffer ∈ s.heap.live.map Prod.fst := by
    rcases buffer with empty | ⟨b, held, _, owns⟩
    · exact .inl empty.buffer
    · right
      rw [← owns.payload]
      exact holds.live.symm.subset (List.mem_map_of_mem held)
  rcases holds.freeMem (if_pos live) with ⟨blocks', nodes', holds', _⟩
  have empty : Empty s.cbuf.circularBufFree := ⟨rfl, rfl, full⟩
  refine ⟨⟨blocks', nodes', holds', .inl empty⟩, empty.kept ?_⟩
  intro address touched
  contradiction

/-- Under the invariant, a call keeps the counters just if it does not free a buffer with
free space. -/
theorem Consistent.kept_iff {call : CbufCall} (consistent : s.Consistent place)
    (sized : ∀ capacity, call = .init capacity → capacity.toNat ≤ maxRequest)
    (taken : step place s call = some s') :
    (s.Kept call s' ↔ s.FreedFull call) ∧ (s.FreedFull call → s'.Consistent place) := by
  cases call with
  | init capacity =>
      rcases consistent.init (sized capacity rfl) taken with ⟨consistent', kept⟩
      refine ⟨⟨fun _ same => ?_, fun _ => kept⟩, fun _ => consistent'⟩
      contradiction
  | queue call =>
      rcases consistent.queue taken with ⟨consistent', kept⟩
      refine ⟨⟨fun _ same => ?_, fun _ => kept⟩, fun _ => consistent'⟩
      contradiction
  | free =>
      cases taken
      refine ⟨⟨fun kept _ => ?_, fun freed => ?_⟩, fun freed => ?_⟩
      · exact UInt32.le_zero_iff.mp kept.counters
      · exact (consistent.free (freed rfl)).2
      · exact (consistent.free (freed rfl)).1

theorem along_kept_iff {calls : List CbufCall} (consistent : s.Consistent place)
    (sized : ∀ capacity, .init capacity ∈ calls → capacity.toNat ≤ maxRequest) :
    Along (step place) Kept s calls ↔ Guarded (step place) FreedFull s calls := by
  induction calls generalizing s with
  | nil => exact Iff.rfl
  | cons call calls ih =>
      have first (capacity : UInt32) (same : call = .init capacity) :
          capacity.toNat ≤ maxRequest := sized capacity (same ▸ List.mem_cons_self)
      have others (capacity : UInt32) (member : .init capacity ∈ calls) :
          capacity.toNat ≤ maxRequest := sized capacity (List.mem_cons_of_mem call member)
      constructor
      · intro along s' taken
        rcases along s' taken with ⟨kept, rest⟩
        rcases consistent.kept_iff first taken with ⟨exact, next⟩
        have freed := exact.mp kept
        exact ⟨freed, (ih (next freed) others).mp rest⟩
      · intro guarded s' taken
        rcases guarded s' taken with ⟨freed, rest⟩
        rcases consistent.kept_iff first taken with ⟨exact, next⟩
        exact ⟨exact.mpr freed, (ih (next freed) others).mpr rest⟩

end Steps

section Lifetime

variable {memory : Bytes} {heap : HeapState}

/-- On any heap, with capacities that can be rounded up, the counters agree throughout a
sequence of calls if and only if no buffer is freed that has free space. -/
theorem counters_consistent_iff
    (reached : Reachable (HeapState.step place) (HeapState.start place memory) heap)
    (calls : List CbufCall)
    (sized : ∀ capacity, .init capacity ∈ calls → capacity.toNat ≤ maxRequest) :
    Along (step place) Kept { heap := heap, cbuf := zeroed } calls ↔
      Guarded (step place) FreedFull { heap := heap, cbuf := zeroed } calls := by
  rcases HeapState.sound_of_reachable reached with ⟨blocks, nodes, holds⟩
  have consistent : Consistent place { heap := heap, cbuf := zeroed } :=
    ⟨blocks, nodes, holds, .inl ⟨rfl, rfl, rfl⟩⟩
  exact along_kept_iff consistent sized

/-- The heap of `linker.ld`, and a zeroed buffer. -/
def linkedStart : Buffered where
  heap := HeapState.start HeapState.linkedPlace fun _ => 0
  cbuf := zeroed

/-- A buffer is filled up, freed and initialised again. -/
theorem counters_consistent_iff_filled :
    Along (step HeapState.linkedPlace) Kept linkedStart
        [.init 4, .queue (.push (fun _ => 7) 4), .free, .init 8] ↔
      Guarded (step HeapState.linkedPlace) FreedFull linkedStart
        [.init 4, .queue (.push (fun _ => 7) 4), .free, .init 8] :=
  counters_consistent_iff ⟨[], rfl⟩ _ (by simp [maxRequest])

/-- What is left of a buffer that was freed empty. -/
def freedEmpty : Option Buffered :=
  run (step HeapState.linkedPlace) linkedStart [.init 4, .free]

theorem freedEmpty_isSome : freedEmpty.isSome := by
  decide +kernel

/-- The freed buffer reports a usage of four gigabytes less four and takes four bytes through
`NULL`. -/
theorem counters_not_consistent :
    (freedEmpty.get freedEmpty_isSome).cbuf.circularBufCurUsage = 0xFFFFFFFC ∧
      (freedEmpty.get freedEmpty_isSome).touched (.queue (.push (fun _ => 7) 4)) = [0, 1, 2, 3] ∧
      ¬Along (step HeapState.linkedPlace) Kept linkedStart [.init 4, .free] := by
  refine ⟨by decide +kernel, by decide +kernel, ?_⟩
  intro along
  have counters : (freedEmpty.get freedEmpty_isSome).cbuf.freeSpace ≤
      (freedEmpty.get freedEmpty_isSome).cbuf.bufSz := by
    have executed : run (step HeapState.linkedPlace) linkedStart ([.init 4] ++ [.free]) =
        some (freedEmpty.get freedEmpty_isSome) := (Option.some_get freedEmpty_isSome).symm
    have twoCalls : Along (step HeapState.linkedPlace) Kept linkedStart ([.init 4] ++ [.free]) :=
      along
    rcases twoCalls.last executed with ⟨_, kept⟩
    exact kept.counters
  revert counters
  decide +kernel

end Lifetime

end Buffered

end Lpc17xx.Cbuf
