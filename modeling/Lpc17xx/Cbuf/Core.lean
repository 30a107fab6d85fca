import Mathlib.Data.UInt
import Mathlib.Data.List.Basic

/-!
# The circular buffer of `cbuf.c`

The buffer is one heap block with a write pointer `head`, a read pointer
`tail` and a count of free bytes.  Pointers are offsets from `buffer`, and
`size_t` is a 32-bit word.  A push or pop of more bytes than fit is refused as
a whole and reported to nobody.
-/

namespace Lpc17xx.Cbuf

/-- `circular_buf`.  `buffer` holds the bytes of the heap block; `head` and
`tail` are offsets from its first byte. -/
structure CircularBuf where
  buffer : List UInt8
  head : Nat
  tail : Nat
  bufSz : UInt32
  freeSpace : UInt32
  deriving DecidableEq, Repr

/-- The first `len` bytes at a data pointer. -/
def bytesAt (data : Nat → UInt8) (len : Nat) : List UInt8 :=
  (List.range len).map data

/-- `circular_buf_init`: `block` is what `get_mem(capacity)` returned, with
whatever bytes it held before. -/
def circularBufInit (capacity : UInt32) (block : List UInt8) : CircularBuf where
  buffer := block
  head := 0
  tail := 0
  bufSz := capacity
  freeSpace := capacity

namespace CircularBuf

/-- `circular_buf_cur_capacity`. -/
def circularBufCurCapacity (cbuf : CircularBuf) : UInt32 :=
  cbuf.freeSpace

/-- `circular_buf_cur_usage`. -/
def circularBufCurUsage (cbuf : CircularBuf) : UInt32 :=
  cbuf.bufSz - cbuf.freeSpace

/-- Move a pointer one byte on, back to `buffer` at the end. -/
def advance (cbuf : CircularBuf) (pointer : Nat) : Nat :=
  if pointer + 1 = cbuf.bufSz.toNat then 0 else pointer + 1

/-- One round of the copying loop of `circular_buf_push`. -/
def pushByte (cbuf : CircularBuf) (byte : UInt8) : CircularBuf :=
  { cbuf with buffer := cbuf.buffer.set cbuf.head byte, head := cbuf.advance cbuf.head }

/-- The copying loop of `circular_buf_push`. -/
def pushLoop : List UInt8 → CircularBuf → CircularBuf
  | [], cbuf => cbuf
  | byte :: bytes, cbuf => pushLoop bytes (cbuf.pushByte byte)

/-- `circular_buf_push`. -/
def circularBufPush (cbuf : CircularBuf) (data : Nat → UInt8) (len : UInt32) : CircularBuf :=
  if cbuf.freeSpace < len then
    cbuf
  else
    let copied := pushLoop (bytesAt data len.toNat) cbuf
    { copied with freeSpace := copied.freeSpace - len }

/-- One round of the copying loop of `circular_buf_pop`: the byte at `tail`
and the buffer without it. -/
def popByte (cbuf : CircularBuf) : UInt8 × CircularBuf :=
  (cbuf.buffer.getD cbuf.tail 0, { cbuf with tail := cbuf.advance cbuf.tail })

/-- The copying loop of `circular_buf_pop`, with the bytes stored to
`dst_buf`. -/
def popLoop : Nat → CircularBuf → List UInt8 × CircularBuf
  | 0, cbuf => ([], cbuf)
  | len + 1, cbuf =>
      let (byte, rest) := cbuf.popByte
      let (bytes, final) := popLoop len rest
      (byte :: bytes, final)

/-- `circular_buf_pop`: the bytes written to `dst_buf` and the buffer
afterwards.  A refused pop writes nothing. -/
def circularBufPop (cbuf : CircularBuf) (len : UInt32) : List UInt8 × CircularBuf :=
  if cbuf.bufSz - cbuf.freeSpace < len then
    ([], cbuf)
  else
    let (bytes, copied) := popLoop len.toNat cbuf
    (bytes, { copied with freeSpace := copied.freeSpace + len })

end CircularBuf

end Lpc17xx.Cbuf
