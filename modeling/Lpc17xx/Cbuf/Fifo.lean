import Lpc17xx.Cbuf.Core
import Lpc17xx.Ring.Window
import Lpc17xx.Serial.Place

/-!
# The circular buffer is a bounded queue

`Live` collects what holds of a buffer between `circular_buf_init` and
`circular_buf_free`.  The queue held by a live buffer is the window of
`usage` bytes from `tail`; a push appends to it or is refused, a pop removes
from its front or is refused.  `LiveBuf` bundles a buffer with the proof that
it is live, so that no later module has to carry the invariant.
-/

namespace Lpc17xx.Cbuf

open Lpc17xx.Ring

@[simp]
theorem length_bytesAt (data : Nat → UInt8) (len : Nat) : (bytesAt data len).length = len := by
  simp [bytesAt]

/-- The bytes at a pointer to a list of bytes are that list. -/
theorem bytesAt_getD (bytes : List UInt8) (fallback : UInt8) :
    bytesAt (fun offset => bytes.getD offset fallback) bytes.length = bytes := by
  apply List.ext_getElem
  · simp
  · intro offset _ bound
    simp [bytesAt, bound]

/-- Only the first `len` bytes count. -/
theorem bytesAt_congr {data data' : Nat → UInt8} {len : Nat}
    (same : ∀ offset < len, data' offset = data offset) : bytesAt data' len = bytesAt data len := by
  apply List.map_congr_left
  intro offset member
  exact same offset (List.mem_range.mp member)

/-- Bytes that were stored one by one. -/
theorem bytesAt_stored {bytes : List UInt8} {size : Nat} {data : Nat → UInt8}
    (sized : bytes.length = size) (stored : ∀ i < size, data i = bytes.getD i 0) :
    bytesAt data size = bytes := by
  rw [bytesAt_congr stored, ← sized]
  exact bytesAt_getD bytes 0

theorem bytesAt_add (data : Nat → UInt8) (first second : Nat) :
    bytesAt data (first + second) =
      bytesAt data first ++ bytesAt (fun i => data (first + i)) second := by
  simp [bytesAt, List.range_add]

theorem take_bytesAt (data : Nat → UInt8) {count len : Nat} (bound : count ≤ len) :
    (bytesAt data len).take count = bytesAt data count := by
  rw [← Nat.add_sub_of_le bound, bytesAt_add]
  simp

namespace CircularBuf

/-- The number of bytes held, as a natural number. -/
def usage (cbuf : CircularBuf) : Nat :=
  cbuf.bufSz.toNat - cbuf.freeSpace.toNat

/-- The queue held by the buffer, oldest byte first. -/
def contents (cbuf : CircularBuf) : List UInt8 :=
  window cbuf.buffer cbuf.tail cbuf.usage

/-- What holds of a buffer in use: the block has the recorded positive size,
both pointers are inside it, and the write pointer is `usage` bytes after the
read pointer. -/
structure Live (cbuf : CircularBuf) : Prop where
  size_pos : 0 < cbuf.buffer.length
  size_eq : cbuf.bufSz.toNat = cbuf.buffer.length
  tail_lt : cbuf.tail < cbuf.buffer.length
  free_le : cbuf.freeSpace.toNat ≤ cbuf.bufSz.toNat
  head_eq : cbuf.head = (cbuf.tail + cbuf.usage) % cbuf.buffer.length

@[simp]
theorem length_contents (cbuf : CircularBuf) : cbuf.contents.length = cbuf.usage :=
  length_window _ _ _

/-- In a live buffer the counter read by `circular_buf_cur_usage` does not
wrap. -/
theorem Live.toNat_circularBufCurUsage {cbuf : CircularBuf} (live : cbuf.Live) :
    cbuf.circularBufCurUsage.toNat = cbuf.usage :=
  UInt32.toNat_sub_of_le _ _ (UInt32.le_iff_toNat_le.mpr live.free_le)

/-- A fresh buffer of positive capacity is live. -/
theorem live_circularBufInit {capacity : UInt32} {block : List UInt8}
    (size : block.length = capacity.toNat) (positive : 0 < capacity) :
    (circularBufInit capacity block).Live where
  size_pos := by
    have bound := UInt32.lt_iff_toNat_lt.mp positive
    simp [circularBufInit] at bound ⊢
    omega
  size_eq := size.symm
  tail_lt := by
    have bound := UInt32.lt_iff_toNat_lt.mp positive
    simp [circularBufInit] at bound ⊢
    omega
  free_le := Nat.le_refl _
  head_eq := by simp [circularBufInit, usage]

theorem contents_circularBufInit (capacity : UInt32) (block : List UInt8) :
    (circularBufInit capacity block).contents = [] := by
  simp [contents, circularBufInit, usage]

/-- Moving a pointer on is addition modulo the size of the block. -/
theorem advance_eq_mod {cbuf : CircularBuf} (sizeEq : cbuf.bufSz.toNat = cbuf.buffer.length)
    {pointer : Nat} (inside : pointer < cbuf.buffer.length) :
    cbuf.advance pointer = (pointer + 1) % cbuf.buffer.length := by
  unfold advance
  split
  · rename_i last
    rw [last, sizeEq, Nat.mod_self]
  · exact (Nat.mod_eq_of_lt (by omega)).symm

/-! ## Push -/

/-- The copying loop of a push changes neither the size, the read pointer nor
the free counter. -/
theorem pushLoop_frame (bytes : List UInt8) (cbuf : CircularBuf) :
    (pushLoop bytes cbuf).buffer.length = cbuf.buffer.length ∧
      (pushLoop bytes cbuf).tail = cbuf.tail ∧
      (pushLoop bytes cbuf).bufSz = cbuf.bufSz ∧
      (pushLoop bytes cbuf).freeSpace = cbuf.freeSpace := by
  induction bytes generalizing cbuf with
  | nil => exact ⟨rfl, rfl, rfl, rfl⟩
  | cons byte bytes ih =>
      rcases ih (cbuf.pushByte byte) with ⟨length, tail, size, free⟩
      exact ⟨length.trans (by simp [pushByte]), tail, size, free⟩

/-- Invariant of the copying loop of a push: with `held` bytes from `tail` on
and room for the rest, the loop writes exactly the given bytes after them. -/
theorem pushLoop_window (bytes : List UInt8) (cbuf : CircularBuf) (held : Nat)
    (sizeEq : cbuf.bufSz.toNat = cbuf.buffer.length)
    (headEq : cbuf.head = (cbuf.tail + held) % cbuf.buffer.length)
    (room : held + bytes.length ≤ cbuf.buffer.length) :
    window (pushLoop bytes cbuf).buffer cbuf.tail (held + bytes.length) =
        window cbuf.buffer cbuf.tail held ++ bytes ∧
      (pushLoop bytes cbuf).head =
        (cbuf.tail + (held + bytes.length)) % cbuf.buffer.length := by
  induction bytes generalizing cbuf held with
  | nil => simp [pushLoop, headEq]
  | cons byte bytes ih =>
      have roomHere : held < cbuf.buffer.length := by
        simp only [List.length_cons] at room
        omega
      have headLt : cbuf.head < cbuf.buffer.length := by
        rw [headEq]
        exact Nat.mod_lt _ (by omega)
      have nextHead : (cbuf.pushByte byte).head =
          (cbuf.tail + (held + 1)) % cbuf.buffer.length := by
        change cbuf.advance cbuf.head = _
        rw [advance_eq_mod sizeEq headLt, headEq, Nat.mod_add_mod, Nat.add_assoc]
      have nextLength : (cbuf.pushByte byte).buffer.length = cbuf.buffer.length := by
        simp [pushByte]
      obtain ⟨rest, headRest⟩ := ih (cbuf.pushByte byte) (held + 1)
        (by rw [nextLength]; exact sizeEq)
        (by rw [nextLength]; exact nextHead)
        (by rw [nextLength]; simp only [List.length_cons] at room; omega)
      have snoc : window (cbuf.pushByte byte).buffer cbuf.tail (held + 1) =
          window cbuf.buffer cbuf.tail held ++ [byte] := by
        change window (cbuf.buffer.set cbuf.head byte) cbuf.tail (held + 1) = _
        rw [headEq]
        exact window_set_snoc cbuf.buffer cbuf.tail byte roomHere
      have count : held + (byte :: bytes).length = held + 1 + bytes.length := by
        simp only [List.length_cons]
        omega
      rw [count]
      constructor
      · calc
          window (pushLoop bytes (cbuf.pushByte byte)).buffer cbuf.tail
              (held + 1 + bytes.length) =
              window (cbuf.pushByte byte).buffer cbuf.tail (held + 1) ++ bytes := rest
          _ = window cbuf.buffer cbuf.tail held ++ [byte] ++ bytes := by rw [snoc]
          _ = window cbuf.buffer cbuf.tail held ++ byte :: bytes := by simp
      · rw [nextLength] at headRest
        exact headRest

/-- A push that does not fit is refused as a whole. -/
theorem circularBufPush_of_lt {cbuf : CircularBuf} {data : Nat → UInt8} {len : UInt32}
    (full : cbuf.freeSpace < len) : cbuf.circularBufPush data len = cbuf :=
  if_pos full

section PushAccepted

variable {cbuf : CircularBuf} {len : UInt32}

/-- An accepted push takes `len` bytes off the free counter. -/
theorem freeSpace_circularBufPush (data : Nat → UInt8) (fits : len ≤ cbuf.freeSpace) :
    (cbuf.circularBufPush data len).freeSpace = cbuf.freeSpace - len := by
  simp [circularBufPush, UInt32.not_lt.mpr fits, (pushLoop_frame _ cbuf).2.2.2]

theorem usage_circularBufPush (data : Nat → UInt8) (live : cbuf.Live)
    (fits : len ≤ cbuf.freeSpace) :
    (cbuf.circularBufPush data len).usage = cbuf.usage + len.toNat := by
  have size : (cbuf.circularBufPush data len).bufSz = cbuf.bufSz := by
    simp [circularBufPush, UInt32.not_lt.mpr fits, (pushLoop_frame _ cbuf).2.2.1]
  have lenLe := UInt32.le_iff_toNat_le.mp fits
  have freeLe := live.free_le
  rw [usage, usage, size, freeSpace_circularBufPush data fits, UInt32.toNat_sub_of_le _ _ fits]
  omega

/-- An accepted push appends its bytes to the queue and keeps the buffer
live. -/
theorem circularBufPush_accepted (data : Nat → UInt8) (live : cbuf.Live)
    (fits : len ≤ cbuf.freeSpace) :
    (cbuf.circularBufPush data len).Live ∧
      (cbuf.circularBufPush data len).contents =
        cbuf.contents ++ bytesAt data len.toNat := by
  have lenLe := UInt32.le_iff_toNat_le.mp fits
  have freeLe := live.free_le
  have sizeEq := live.size_eq
  rcases pushLoop_frame (bytesAt data len.toNat) cbuf with ⟨length, tail, size, _⟩
  obtain ⟨written, head⟩ := pushLoop_window (bytesAt data len.toNat) cbuf cbuf.usage
    live.size_eq live.head_eq (by simp only [length_bytesAt, usage]; omega)
  have used := usage_circularBufPush data live fits
  have free := freeSpace_circularBufPush data fits
  have unfolded : cbuf.circularBufPush data len =
      { pushLoop (bytesAt data len.toNat) cbuf with
        freeSpace := (pushLoop (bytesAt data len.toNat) cbuf).freeSpace - len } :=
    if_neg (UInt32.not_lt.mpr fits)
  have bufferEq : (cbuf.circularBufPush data len).buffer =
      (pushLoop (bytesAt data len.toNat) cbuf).buffer := by rw [unfolded]
  have tailEq : (cbuf.circularBufPush data len).tail = cbuf.tail := by rw [unfolded]; exact tail
  have headEq : (cbuf.circularBufPush data len).head =
      (pushLoop (bytesAt data len.toNat) cbuf).head := by rw [unfolded]
  have bufSzEq : (cbuf.circularBufPush data len).bufSz = cbuf.bufSz := by
    rw [unfolded]
    exact size
  rw [length_bytesAt] at written head
  constructor
  · constructor
    · rw [bufferEq, length]
      exact live.size_pos
    · rw [bufferEq, length, bufSzEq]
      exact sizeEq
    · rw [bufferEq, length, tailEq]
      exact live.tail_lt
    · rw [free, bufSzEq, UInt32.toNat_sub_of_le _ _ fits]
      omega
    · rw [headEq, head, bufferEq, length, tailEq, used]
  · rw [contents, contents, bufferEq, tailEq, used, written]

end PushAccepted

/-- Whether accepted or refused, a push keeps the buffer live. -/
theorem Live.circularBufPush {cbuf : CircularBuf} (live : cbuf.Live) (data : Nat → UInt8)
    (len : UInt32) : (cbuf.circularBufPush data len).Live := by
  by_cases full : cbuf.freeSpace < len
  · rw [circularBufPush_of_lt full]
    exact live
  · exact (circularBufPush_accepted data live (UInt32.not_lt.mp full)).1

/-! ## Pop -/

/-- The copying loop of a pop reads the first `len` bytes of the window and
moves only the read pointer. -/
theorem popLoop_eq (len : Nat) (cbuf : CircularBuf)
    (sizeEq : cbuf.bufSz.toNat = cbuf.buffer.length) (tailLt : cbuf.tail < cbuf.buffer.length) :
    popLoop len cbuf =
      (window cbuf.buffer cbuf.tail len,
        { cbuf with tail := (cbuf.tail + len) % cbuf.buffer.length }) := by
  induction len generalizing cbuf with
  | zero => simp [popLoop, Nat.mod_eq_of_lt tailLt]
  | succ len ih =>
      have step : cbuf.popByte = (cbuf.buffer.getD cbuf.tail 0,
          { cbuf with tail := (cbuf.tail + 1) % cbuf.buffer.length }) := by
        rw [popByte, advance_eq_mod sizeEq tailLt]
      have rest := ih { cbuf with tail := (cbuf.tail + 1) % cbuf.buffer.length } sizeEq
        (Nat.mod_lt _ (by omega))
      have first : window cbuf.buffer cbuf.tail 1 = [cbuf.buffer.getD cbuf.tail 0] := by
        simp only [window, List.range_one, List.map_cons, List.map_nil, Nat.add_zero,
          Nat.mod_eq_of_lt tailLt]
        rfl
      simp only [popLoop, step, rest, Nat.add_comm len 1, window_add, first, Nat.mod_add_mod,
        Nat.add_assoc, List.singleton_append]

/-- A pop of more bytes than are held is refused as a whole. -/
theorem circularBufPop_of_lt {cbuf : CircularBuf} {len : UInt32}
    (short : cbuf.circularBufCurUsage < len) : cbuf.circularBufPop len = ([], cbuf) :=
  if_pos short

/-- An accepted pop hands out the front of the queue and keeps the rest. -/
theorem circularBufPop_accepted {cbuf : CircularBuf} {len : UInt32} (live : cbuf.Live)
    (held : len ≤ cbuf.circularBufCurUsage) :
    (cbuf.circularBufPop len).1 = cbuf.contents.take len.toNat ∧
      (cbuf.circularBufPop len).2.Live ∧
      (cbuf.circularBufPop len).2.contents = cbuf.contents.drop len.toNat ∧
      (cbuf.circularBufPop len).2.freeSpace = cbuf.freeSpace + len := by
  have lenLe : len.toNat ≤ cbuf.usage := by
    rw [← live.toNat_circularBufCurUsage]
    exact UInt32.le_iff_toNat_le.mp held
  have freeLe := live.free_le
  have popped := popLoop_eq len.toNat cbuf live.size_eq live.tail_lt
  have unfolded : cbuf.circularBufPop len =
      (window cbuf.buffer cbuf.tail len.toNat,
        { cbuf with
          tail := (cbuf.tail + len.toNat) % cbuf.buffer.length
          freeSpace := cbuf.freeSpace + len }) := by
    have accepted : ¬cbuf.bufSz - cbuf.freeSpace < len := UInt32.not_lt.mpr held
    simp only [circularBufPop, if_neg accepted, popped]
  have freeEq : (cbuf.freeSpace + len).toNat = cbuf.freeSpace.toNat + len.toNat := by
    have bound := cbuf.bufSz.toNat_lt
    unfold usage at lenLe
    rw [UInt32.toNat_add, Nat.mod_eq_of_lt (by omega)]
  have used : (cbuf.circularBufPop len).2.usage = cbuf.usage - len.toNat := by
    rw [unfolded]
    simp only [usage, freeEq]
    omega
  refine ⟨?_, ?_, ?_, ?_⟩
  · rw [unfolded, contents, take_window _ _ lenLe]
  · constructor
    · rw [unfolded]
      exact live.size_pos
    · rw [unfolded]
      exact live.size_eq
    · rw [unfolded]
      exact Nat.mod_lt _ live.size_pos
    · rw [unfolded]
      simp only [freeEq]
      unfold usage at lenLe
      omega
    · rw [used, unfolded]
      simp only [Nat.mod_add_mod]
      rw [live.head_eq]
      congr 1
      omega
  · rw [contents, used, contents, drop_window _ _ lenLe, unfolded]
  · rw [unfolded]

theorem Live.circularBufPop {cbuf : CircularBuf} (live : cbuf.Live) (len : UInt32) :
    (cbuf.circularBufPop len).2.Live := by
  by_cases short : cbuf.circularBufCurUsage < len
  · rw [circularBufPop_of_lt short]
    exact live
  · exact (circularBufPop_accepted live (UInt32.not_lt.mp short)).2.1

end CircularBuf

/-! ## Live buffers as a type -/

/-- A buffer together with the proof that it is in use. -/
def LiveBuf :=
  { cbuf : CircularBuf // cbuf.Live }

namespace LiveBuf

instance : DecidableEq LiveBuf :=
  inferInstanceAs (DecidableEq { cbuf : CircularBuf // cbuf.Live })

/-- `circular_buf_init` with a positive capacity. -/
def init (capacity : UInt32) (positive : 0 < capacity) (block : List UInt8)
    (size : block.length = capacity.toNat) : LiveBuf :=
  ⟨circularBufInit capacity block, CircularBuf.live_circularBufInit size positive⟩

/-- `circular_buf_push` on a live buffer. -/
def push (buf : LiveBuf) (data : Nat → UInt8) (len : UInt32) : LiveBuf :=
  ⟨buf.1.circularBufPush data len, buf.2.circularBufPush data len⟩

/-- `circular_buf_pop` on a live buffer. -/
def pop (buf : LiveBuf) (len : UInt32) : List UInt8 × LiveBuf :=
  ((buf.1.circularBufPop len).1, ⟨(buf.1.circularBufPop len).2, buf.2.circularBufPop len⟩)

/-- `circular_buf_cur_capacity`. -/
def curCapacity (buf : LiveBuf) : UInt32 :=
  buf.1.circularBufCurCapacity

/-- `circular_buf_cur_usage`. -/
def curUsage (buf : LiveBuf) : UInt32 :=
  buf.1.circularBufCurUsage

/-- The queue held by the buffer. -/
def contents (buf : LiveBuf) : List UInt8 :=
  buf.1.contents

/-- Used and free bytes make up the block. -/
theorem length_contents_add_curCapacity (buf : LiveBuf) :
    buf.contents.length + buf.curCapacity.toNat = buf.1.bufSz.toNat := by
  have freeLe := buf.2.free_le
  change buf.1.contents.length + buf.1.freeSpace.toNat = _
  rw [CircularBuf.length_contents, CircularBuf.usage]
  omega

@[simp]
theorem toNat_curUsage (buf : LiveBuf) : buf.curUsage.toNat = buf.contents.length := by
  change buf.1.circularBufCurUsage.toNat = buf.1.contents.length
  rw [buf.2.toNat_circularBufCurUsage, CircularBuf.length_contents]

@[simp]
theorem contents_init (capacity : UInt32) (positive : 0 < capacity) (block : List UInt8)
    (size : block.length = capacity.toNat) :
    (init capacity positive block size).contents = [] :=
  CircularBuf.contents_circularBufInit capacity block

@[simp]
theorem curCapacity_init (capacity : UInt32) (positive : 0 < capacity) (block : List UInt8)
    (size : block.length = capacity.toNat) :
    (init capacity positive block size).curCapacity = capacity :=
  rfl

section Accepted

variable {buf : LiveBuf} {data : Nat → UInt8} {len : UInt32}

/-- A push reads the bytes it is told to push and no others. -/
theorem push_congr {data' : Nat → UInt8}
    (same : bytesAt data' len.toNat = bytesAt data len.toNat) :
    buf.push data' len = buf.push data len := by
  apply Subtype.ext
  simp only [push, CircularBuf.circularBufPush, same]

theorem push_of_lt (full : buf.curCapacity < len) : buf.push data len = buf :=
  Subtype.ext (CircularBuf.circularBufPush_of_lt full)

theorem contents_push (fits : len ≤ buf.curCapacity) :
    (buf.push data len).contents = buf.contents ++ bytesAt data len.toNat :=
  (CircularBuf.circularBufPush_accepted data buf.2 fits).2

theorem curCapacity_push (fits : len ≤ buf.curCapacity) :
    (buf.push data len).curCapacity = buf.curCapacity - len :=
  CircularBuf.freeSpace_circularBufPush data fits

theorem pop_fst (held : len ≤ buf.curUsage) :
    (buf.pop len).1 = buf.contents.take len.toNat :=
  (CircularBuf.circularBufPop_accepted buf.2 held).1

theorem contents_pop (held : len ≤ buf.curUsage) :
    (buf.pop len).2.contents = buf.contents.drop len.toNat :=
  (CircularBuf.circularBufPop_accepted buf.2 held).2.2.1

theorem curCapacity_pop (held : len ≤ buf.curUsage) :
    (buf.pop len).2.curCapacity = buf.curCapacity + len :=
  (CircularBuf.circularBufPop_accepted buf.2 held).2.2.2

/-- The room that an accepted pop makes. -/
theorem toNat_curCapacity_pop (held : len ≤ buf.curUsage) :
    (buf.pop len).2.curCapacity.toNat = buf.curCapacity.toNat + len.toNat := by
  have heldNat : len.toNat ≤ buf.contents.length := by
    rw [← toNat_curUsage]
    exact UInt32.le_iff_toNat_le.mp held
  have total := buf.length_contents_add_curCapacity
  have bound := buf.1.bufSz.toNat_lt
  rw [curCapacity_pop held, UInt32.toNat_add, Nat.mod_eq_of_lt (by omega)]

end Accepted

end LiveBuf

end Lpc17xx.Cbuf
