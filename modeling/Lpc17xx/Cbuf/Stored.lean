import Lpc17xx.Cbuf.Fifo
import Lpc17xx.Memory.Word

/-!
# The circular buffer in memory

`cbuf.c` once more, with its pointers as addresses: what is pushed is written through `head`
into memory, and what is popped is read through `tail`.  As long as the pointers are inside
the buffer, it is the circular buffer with offsets for pointers.
-/

namespace Lpc17xx.Cbuf

open Lpc17xx.Memory

/-- `circular_buf`, with addresses for pointers.  `NULL` is zero. -/
structure Stored where
  buffer : Nat
  head : Nat
  tail : Nat
  bufSz : UInt32
  freeSpace : UInt32
  deriving DecidableEq, Repr

/-- What a call leaves: memory, the buffer, what was written to `dst_buf`, and the addresses
that were written or read through the pointers of the buffer. -/
structure Outcome where
  memory : Bytes
  cbuf : Stored
  popped : List UInt8
  touched : List Nat

namespace Stored

/-- `circular_buf_init`, with what `get_mem(capacity)` returned. -/
def circularBufInit (capacity : UInt32) (ptr : Nat) : Stored where
  buffer := ptr
  head := ptr
  tail := ptr
  bufSz := capacity
  freeSpace := capacity

/-- `circular_buf_free`, but for the call of `free_mem`.  It leaves `free_space`. -/
def circularBufFree (cbuf : Stored) : Stored :=
  { cbuf with buffer := 0, tail := 0, head := 0, bufSz := 0 }

/-- `circular_buf_cur_capacity`. -/
def circularBufCurCapacity (cbuf : Stored) : UInt32 :=
  cbuf.freeSpace

/-- `circular_buf_cur_usage`. -/
def circularBufCurUsage (cbuf : Stored) : UInt32 :=
  cbuf.bufSz - cbuf.freeSpace

/-- Move a pointer one byte on, back to `buffer` at the end. -/
def advance (cbuf : Stored) (pointer : Nat) : Nat :=
  let pointer := (pointer + 1) % 2 ^ 32
  if pointer = (cbuf.buffer + cbuf.bufSz.toNat) % 2 ^ 32 then cbuf.buffer else pointer

/-- The copying loop of `circular_buf_push`. -/
def pushLoop : List UInt8 → Bytes → Stored → Outcome
  | [], memory, cbuf => { memory, cbuf, popped := [], touched := [] }
  | byte :: bytes, memory, cbuf =>
      let rest := pushLoop bytes (Function.update memory cbuf.head byte)
        { cbuf with head := cbuf.advance cbuf.head }
      { rest with touched := cbuf.head :: rest.touched }

/-- `circular_buf_push`. -/
def circularBufPush (memory : Bytes) (cbuf : Stored) (data : Nat → UInt8) (len : UInt32) :
    Outcome :=
  if cbuf.freeSpace < len then
    { memory, cbuf, popped := [], touched := [] }
  else
    let copied := pushLoop (bytesAt data len.toNat) memory cbuf
    { copied with cbuf := { copied.cbuf with freeSpace := copied.cbuf.freeSpace - len } }

/-- The copying loop of `circular_buf_pop`. -/
def popLoop (memory : Bytes) : Nat → Stored → Outcome
  | 0, cbuf => { memory, cbuf, popped := [], touched := [] }
  | len + 1, cbuf =>
      let rest := popLoop memory len { cbuf with tail := cbuf.advance cbuf.tail }
      { rest with
        popped := memory cbuf.tail :: rest.popped
        touched := cbuf.tail :: rest.touched }

/-- `circular_buf_pop`. -/
def circularBufPop (memory : Bytes) (cbuf : Stored) (len : UInt32) : Outcome :=
  if cbuf.bufSz - cbuf.freeSpace < len then
    { memory, cbuf, popped := [], touched := [] }
  else
    let copied := popLoop memory len.toNat cbuf
    { copied with cbuf := { copied.cbuf with freeSpace := copied.cbuf.freeSpace + len } }

/-- The address is that of a byte of the buffer. -/
def Within (cbuf : Stored) (address : Nat) : Prop :=
  cbuf.buffer ≤ address ∧ address < cbuf.buffer + cbuf.bufSz.toNat

instance (cbuf : Stored) (address : Nat) : Decidable (cbuf.Within address) :=
  inferInstanceAs (Decidable (_ ∧ _))

/-- The buffer does not go around the end of memory, and both pointers are inside. -/
structure Placed (cbuf : Stored) : Prop where
  below : cbuf.buffer + cbuf.bufSz.toNat < 2 ^ 32
  head : cbuf.Within cbuf.head
  tail : cbuf.Within cbuf.tail

/-- The buffer with offsets for pointers. -/
def view (memory : Bytes) (cbuf : Stored) : CircularBuf where
  buffer := bytesAt (fun offset => memory (cbuf.buffer + offset)) cbuf.bufSz.toNat
  head := cbuf.head - cbuf.buffer
  tail := cbuf.tail - cbuf.buffer
  bufSz := cbuf.bufSz
  freeSpace := cbuf.freeSpace

section Loops

variable {memory : Bytes} {cbuf : Stored}

/-- Between the ends, a pointer is moved as an offset is. -/
theorem Placed.advance_spec (placed : cbuf.Placed) {pointer : Nat} (inside : cbuf.Within pointer) :
    cbuf.Within (cbuf.advance pointer) ∧
      cbuf.advance pointer - cbuf.buffer =
        (cbuf.view memory).advance (pointer - cbuf.buffer) := by
  have below := placed.below
  rcases inside with ⟨low, high⟩
  have next : (pointer + 1) % 2 ^ 32 = pointer + 1 := Nat.mod_eq_of_lt (by omega)
  have limit : (cbuf.buffer + cbuf.bufSz.toNat) % 2 ^ 32 = cbuf.buffer + cbuf.bufSz.toNat :=
    Nat.mod_eq_of_lt below
  have size : (cbuf.view memory).bufSz = cbuf.bufSz := rfl
  simp only [Stored.advance, CircularBuf.advance, Within, next, limit, size]
  by_cases last : pointer + 1 = cbuf.buffer + cbuf.bufSz.toNat
  · rw [if_pos last, if_pos (by omega)]
    omega
  · rw [if_neg last, if_neg (by omega)]
    omega

/-- The bytes of the buffer when one of them is written. -/
theorem bytesAt_update {base size address : Nat} (low : base ≤ address) (byte : UInt8) :
    bytesAt (fun offset => Function.update memory address byte (base + offset)) size =
      (bytesAt (fun offset => memory (base + offset)) size).set (address - base) byte := by
  apply List.ext_getElem
  · simp
  · intro offset bound bound'
    have inside : offset < size := by simpa using bound
    rw [List.getElem_set]
    by_cases here : address - base = offset
    · have same : base + offset = address := by omega
      simp [bytesAt, here, same]
    · have other : base + offset ≠ address := by omega
      simp [bytesAt, here, other]

theorem pushLoop_spec (placed : cbuf.Placed) (bytes : List UInt8) :
    (pushLoop bytes memory cbuf).cbuf.Placed ∧
      (pushLoop bytes memory cbuf).cbuf.buffer = cbuf.buffer ∧
      (pushLoop bytes memory cbuf).cbuf.view (pushLoop bytes memory cbuf).memory =
        CircularBuf.pushLoop bytes (cbuf.view memory) ∧
      ∀ address ∈ (pushLoop bytes memory cbuf).touched, cbuf.Within address := by
  induction bytes generalizing memory cbuf with
  | nil =>
      refine ⟨placed, rfl, rfl, ?_⟩
      intro address touched
      contradiction
  | cons byte bytes ih =>
      rcases @Placed.advance_spec memory _ placed _ placed.head with ⟨inside, offset⟩
      have next : Placed { cbuf with head := cbuf.advance cbuf.head } :=
        ⟨placed.below, inside, placed.tail⟩
      rcases @ih (Function.update memory cbuf.head byte) _ next with ⟨rest, buffer, same, within⟩
      have written : view (Function.update memory cbuf.head byte)
          { cbuf with head := cbuf.advance cbuf.head } = (cbuf.view memory).pushByte byte := by
        simp only [view, CircularBuf.pushByte, CircularBuf.mk.injEq, and_true]
        exact ⟨bytesAt_update placed.head.1 byte, offset⟩
      refine ⟨rest, buffer, ?_, ?_⟩
      · rw [written] at same
        exact same
      · intro address touched
        rcases List.mem_cons.mp touched with rfl | later
        · exact placed.head
        · exact within address later

/-- A loop writes to what it touches. -/
theorem pushLoop_frame (bytes : List UInt8) {address : Nat}
    (apart : address ∉ (pushLoop bytes memory cbuf).touched) :
    (pushLoop bytes memory cbuf).memory address = memory address := by
  induction bytes generalizing memory cbuf with
  | nil => rfl
  | cons byte bytes ih =>
      rcases not_or.mp (mt List.mem_cons.mpr apart) with ⟨other, rest⟩
      exact (ih rest).trans (Function.update_of_ne other _ _)

theorem pushLoop_popped (bytes : List UInt8) : (pushLoop bytes memory cbuf).popped = [] := by
  induction bytes generalizing memory cbuf with
  | nil => rfl
  | cons byte bytes ih => exact ih

theorem popLoop_bufSz (len : Nat) : (popLoop memory len cbuf).cbuf.bufSz = cbuf.bufSz := by
  induction len generalizing cbuf with
  | zero => rfl
  | succ len ih => exact ih

theorem popLoop_spec (placed : cbuf.Placed) (len : Nat) :
    (popLoop memory len cbuf).cbuf.Placed ∧
      (popLoop memory len cbuf).cbuf.buffer = cbuf.buffer ∧
      (popLoop memory len cbuf).memory = memory ∧
      ((popLoop memory len cbuf).popped, (popLoop memory len cbuf).cbuf.view memory) =
        CircularBuf.popLoop len (cbuf.view memory) ∧
      ∀ address ∈ (popLoop memory len cbuf).touched, cbuf.Within address := by
  induction len generalizing cbuf with
  | zero =>
      refine ⟨placed, rfl, rfl, rfl, ?_⟩
      intro address touched
      contradiction
  | succ len ih =>
      rcases @Placed.advance_spec memory _ placed _ placed.tail with ⟨inside, offset⟩
      have next : Placed { cbuf with tail := cbuf.advance cbuf.tail } :=
        ⟨placed.below, placed.head, inside⟩
      rcases ih next with ⟨rest, buffer, kept, same, within⟩
      have read : (cbuf.view memory).popByte =
          (memory cbuf.tail, view memory { cbuf with tail := cbuf.advance cbuf.tail }) := by
        have bound := placed.tail
        unfold Within at bound
        have there : cbuf.tail - cbuf.buffer < cbuf.bufSz.toNat := by omega
        have back : cbuf.buffer + (cbuf.tail - cbuf.buffer) = cbuf.tail := by omega
        simp [CircularBuf.popByte, view, bytesAt, there, back, offset]
      refine ⟨rest, buffer, kept, ?_, ?_⟩
      · simp only [CircularBuf.popLoop, read, ← same]
        rfl
      · intro address touched
        rcases List.mem_cons.mp touched with rfl | later
        · exact placed.tail
        · exact within address later

end Loops

section Calls

variable {memory : Bytes} {cbuf : Stored} {data : Nat → UInt8} {len : UInt32}

/-- What a call on a placed buffer leaves: a placed buffer in the same place, and other
memory as it was. -/
structure Confined (memory : Bytes) (cbuf : Stored) (after : Outcome) : Prop where
  placed : after.cbuf.Placed
  buffer : after.cbuf.buffer = cbuf.buffer
  size : after.cbuf.bufSz = cbuf.bufSz
  touched : ∀ address ∈ after.touched, cbuf.Within address
  frame : ∀ address, ¬cbuf.Within address → after.memory address = memory address

theorem confined_refused (placed : cbuf.Placed) :
    Confined memory cbuf { memory, cbuf, popped := [], touched := [] } where
  placed := placed
  buffer := rfl
  size := rfl
  touched := by
    intro address touched
    contradiction
  frame := fun _ _ => rfl

theorem circularBufPush_refused (full : cbuf.freeSpace < len) :
    circularBufPush memory cbuf data len = { memory, cbuf, popped := [], touched := [] } :=
  if_pos full

/-- A push into memory is a push. -/
theorem circularBufPush_spec (placed : cbuf.Placed) :
    Confined memory cbuf (circularBufPush memory cbuf data len) ∧
      (circularBufPush memory cbuf data len).popped = [] ∧
      (circularBufPush memory cbuf data len).cbuf.view
          (circularBufPush memory cbuf data len).memory =
        (cbuf.view memory).circularBufPush data len := by
  by_cases full : cbuf.freeSpace < len
  · have full' : (cbuf.view memory).freeSpace < len := full
    rw [circularBufPush_refused full, CircularBuf.circularBufPush_of_lt full']
    exact ⟨confined_refused placed, rfl, rfl⟩
  · have fits : ¬(cbuf.view memory).freeSpace < len := full
    rcases @pushLoop_spec memory cbuf placed (bytesAt data len.toNat) with
      ⟨rest, buffer, same, within⟩
    have size : (pushLoop (bytesAt data len.toNat) memory cbuf).cbuf.bufSz = cbuf.bufSz :=
      (congrArg CircularBuf.bufSz same).trans (CircularBuf.pushLoop_frame _ _).2.2.1
    have nothing : (pushLoop (bytesAt data len.toNat) memory cbuf).popped = [] :=
      pushLoop_popped _
    rw [circularBufPush, if_neg full, CircularBuf.circularBufPush, if_neg fits, ← same]
    refine ⟨⟨⟨rest.below, rest.head, rest.tail⟩, buffer, size, within, ?_⟩, nothing, rfl⟩
    intro address outside
    exact pushLoop_frame _ fun touched => outside (within address touched)

theorem circularBufPop_refused (short : cbuf.circularBufCurUsage < len) :
    circularBufPop memory cbuf len = { memory, cbuf, popped := [], touched := [] } :=
  if_pos short

/-- A pop from memory is a pop. -/
theorem circularBufPop_spec (placed : cbuf.Placed) :
    Confined memory cbuf (circularBufPop memory cbuf len) ∧
      (circularBufPop memory cbuf len).memory = memory ∧
      ((circularBufPop memory cbuf len).popped,
          (circularBufPop memory cbuf len).cbuf.view memory) =
        (cbuf.view memory).circularBufPop len := by
  by_cases short : cbuf.circularBufCurUsage < len
  · have short' : (cbuf.view memory).circularBufCurUsage < len := short
    rw [circularBufPop_refused short, CircularBuf.circularBufPop_of_lt short']
    exact ⟨confined_refused placed, rfl, rfl⟩
  · have held : ¬(cbuf.view memory).bufSz - (cbuf.view memory).freeSpace < len := short
    have held' : ¬cbuf.bufSz - cbuf.freeSpace < len := short
    rcases @popLoop_spec memory cbuf placed len.toNat with ⟨rest, buffer, kept, same, within⟩
    have size : (popLoop memory len.toNat cbuf).cbuf.bufSz = cbuf.bufSz := popLoop_bufSz _
    rw [circularBufPop, if_neg held', CircularBuf.circularBufPop, if_neg held, ← same]
    exact ⟨⟨⟨rest.below, rest.head, rest.tail⟩, buffer, size, within,
      fun address _ => congrFun kept address⟩, kept, rfl⟩

end Calls

end Stored

end Lpc17xx.Cbuf
