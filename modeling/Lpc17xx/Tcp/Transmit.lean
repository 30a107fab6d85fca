import Lpc17xx.Protocol.Padding
import Lpc17xx.Queue.Transmit
import Lpc17xx.Tcp.Allocation
import Lpc17xx.Wire.HeaderChecksum

/-!
# `tcp_tx`

The segment that `tcp_tx` builds, byte by byte, and its checksum.  The code lays out the
header and the pseudo header in network order, but adds their half-words in the order
of the processor, together with those of the payload, from a buffer that is filled up to
an even number of bytes.  A receiver that knows only the standard finds a sum of all
ones.
-/

namespace Lpc17xx.Tcp

open Lpc17xx.Cbuf
open Lpc17xx.Checksum
open Lpc17xx.Memory
open Lpc17xx.Protocol
open Lpc17xx.Queue
open Lpc17xx.Wire

/-- The byte with `data_offset`. -/
def TcpHeader.offsetByte (header : TcpHeader) : UInt8 :=
  .ofBitVec (header.dataOffset ++ header.reserved0)

/-- The byte with the flags, from the highest bit down. -/
def TcpHeader.flagsByte (header : TcpHeader) : UInt8 :=
  .ofBitVec (BitVec.ofBool header.cwr ++ BitVec.ofBool header.ece ++ BitVec.ofBool header.urg ++
    BitVec.ofBool header.ack ++ BitVec.ofBool header.psh ++ BitVec.ofBool header.rst ++
    BitVec.ofBool header.syn ++ BitVec.ofBool header.fin)

/-- A `tcp_header` as it lies in memory. -/
def TcpHeader.bytes (header : TcpHeader) : Bytes :=
  let memory : Bytes := fun _ => 0
  let memory := store16 memory 0 header.sourcePort
  let memory := store16 memory 2 header.destPort
  let memory := store32 memory 4 header.seqN
  let memory := store32 memory 8 header.ackN
  let memory := Function.update memory 12 header.offsetByte
  let memory := Function.update memory 13 header.flagsByte
  let memory := store16 memory 14 header.windowSz
  let memory := store16 memory 16 header.checksum
  store16 memory 18 header.urgPtr

/-- The `tcp_pseudo` of `tcp_tx`. -/
def tcpPseudo (destIp : UInt32) (payloadLen : Nat) : Bytes :=
  let pheader : Bytes := fun _ => 0
  let pheader := store32 pheader 0 ourIpAddress
  let pheader := store32 pheader 4 destIp
  let pheader := Function.update pheader 9 ipProtoTcp
  store16 pheader 10 (.ofNat (20 + payloadLen))

/-- Memory after `tcp_swap_pseudo_endian`. -/
def tcpPseudoSwapped (pheader : Bytes) : Bytes :=
  let pheader := swap32 pheader 0
  let pheader := swap32 pheader 4
  swap16 pheader 10

/-- `buf` of `tcp_compute_checksum`, a block that held `block` before. -/
def checksumBuf (block header pheader : Bytes) (payloadData : List UInt8) : Bytes :=
  let bufSz := checksumBufSz payloadData.length
  let buf := storeBytes block 0 (List.replicate bufSz 0)
  let buf := storeBytes buf 0 (bytesAt pheader 12)
  let buf := storeBytes buf 12 (bytesAt header 20)
  storeBytes buf 32 payloadData

/-- The header after `tcp_compute_checksum`. -/
def tcpComputeChecksum (block header pheader : Bytes) (payloadData : List UInt8) : Bytes :=
  let bufSz := checksumBufSz payloadData.length
  store16 header 16 (halvesChecksum (checksumBuf block header pheader payloadData) (bufSz / 2))

/-- `buf` in the call of `tcp_compute_checksum` by `tcp_tx`. -/
def tcpTxChecksumBuf (block : Bytes) (tx : TcpTx) : Bytes :=
  checksumBuf block (tcpSwappedMemory tx.header.bytes 0)
    (tcpPseudoSwapped (tcpPseudo tx.destIp tx.payload.length)) tx.payload

/-- The header that `tcp_tx` copies into the segment. -/
def tcpTxHeader (block : Bytes) (tx : TcpTx) : Bytes :=
  tcpComputeChecksum block (tcpSwappedMemory tx.header.bytes 0)
    (tcpPseudoSwapped (tcpPseudo tx.destIp tx.payload.length)) tx.payload

/-- The arguments of `ip4_xmit_packet`, with the bytes that it copies. -/
structure Ip4Xmit where
  protocol : UInt8
  dstIp : UInt32
  payload : List UInt8
  deriving DecidableEq

/-- `tcp_tx`: the call of `ip4_xmit_packet`.  Its `payload_len` has 16 bits. -/
def tcpTx (block : Bytes) (tx : TcpTx) : Ip4Xmit :=
  let buf := bytesAt (tcpTxHeader block tx) 20 ++ tx.payload
  { protocol := ipProtoTcp
    dstIp := tx.destIp
    payload := buf.take (UInt16.ofNat (20 + tx.payload.length)).toNat }

/-- A run of `while (sum >> 16)`, and the sum that it leaves. -/
inductive FoldsTo : UInt32 → UInt32 → Prop
  | leaves {sum : UInt32} : sum >>> 16 = 0 → FoldsTo sum sum
  | again {sum last : UInt32} : sum >>> 16 ≠ 0 →
      FoldsTo ((sum &&& (0xffff : UInt32)) + (sum >>> 16)) last → FoldsTo sum last

/-- The words of the pseudo header in RFC 793. -/
def pseudoWords (source destination length : Nat) : List Nat :=
  [source / 2 ^ 16, source % 2 ^ 16, destination / 2 ^ 16, destination % 2 ^ 16, 6, length]

/-- The segment is the header, but for its checksum, and the payload behind it. -/
def SegmentCarries (tx : TcpTx) (segment : List UInt8) : Prop :=
  segment.length = 20 + tx.payload.length ∧ segment.drop 20 = tx.payload ∧
    ∃ checksum, tcpHeaderFrom (fun i => segment.getD i 0) 0 = { tx.header with checksum }

/-- A receiver of the segment finds its checksum right. -/
def SegmentVerifies (destIp : UInt32) (segment : List UInt8) : Prop :=
  onesSum 0xffff (pseudoWords ourIpAddress.toNat destIp.toNat segment.length ++
    networkWords segment) = 0xffff

section Words

/-- Words of bytes in one list are those of its parts, if the first part is even. -/
theorem networkWords_append {first : List UInt8} (even : first.length % 2 = 0)
    (second : List UInt8) :
    networkWords (first ++ second) = networkWords first ++ networkWords second := by
  induction first using networkWords.induct with
  | case1 => rfl
  | case2 high => contradiction
  | case3 high low rest ih =>
      have shorter : rest.length % 2 = 0 := by
        simp only [List.length_cons] at even
        omega
      change networkNat [high, low] :: networkWords (rest ++ second) = _
      rw [ih shorter, networkWords, List.cons_append]

/-- A last byte on its own may as well be filled up with a zero. -/
theorem networkWords_padded (bytes : List UInt8) :
    networkWords (bytes ++ List.replicate (bytes.length % 2) 0) = networkWords bytes := by
  induction bytes using networkWords.induct with
  | case1 => rfl
  | case2 high => rfl
  | case3 high low rest ih =>
      have parity : (high :: low :: rest).length % 2 = rest.length % 2 := by
        simp only [List.length_cons]
        omega
      rw [parity]
      change networkNat [high, low] :: networkWords (rest ++ _) = _
      rw [ih, networkWords]

theorem toNat_big32_halves (memory : Bytes) (address : Nat) :
    (big32 memory address).toNat =
      (big16 memory address).toNat * 2 ^ 16 + (big16 memory (address + 2)).toNat := by
  have third : memory (address + 2 + 1) = memory (address + 3) := rfl
  simp only [toNat_big32, toNat_big16, networkNat, List.foldl_cons, List.foldl_nil, third]
  omega

end Words

section Buffer

variable {block header pheader : Bytes} {payload : List UInt8} {i : Nat}

theorem checksumBuf_pheader (inside : i < 12) :
    checksumBuf block header pheader payload i = pheader i := by
  have stored := @storeBytes_of_inside
    (storeBytes block 0 (List.replicate (checksumBufSz payload.length) 0)) 0
    (bytesAt pheader 12) i (by rwa [length_bytesAt])
  rw [Nat.zero_add] at stored
  rw [checksumBuf, storeBytes_of_outside (by omega), storeBytes_of_outside (by omega), stored]
  simp [bytesAt, inside]

theorem checksumBuf_header (inside : i < 20) :
    checksumBuf block header pheader payload (12 + i) = header i := by
  rw [checksumBuf, storeBytes_of_outside (by omega),
    storeBytes_of_inside (by rwa [length_bytesAt])]
  simp [bytesAt, inside]

theorem checksumBuf_payload (inside : i < payload.length) :
    checksumBuf block header pheader payload (32 + i) = payload.getD i 0 := by
  rw [checksumBuf, storeBytes_of_inside inside]

/-- Behind the payload stands what `memset` has left. -/
theorem checksumBuf_padding (inside : 32 + i < checksumBufSz payload.length)
    (behind : payload.length ≤ i) :
    checksumBuf block header pheader payload (32 + i) = 0 := by
  have cleared := @storeBytes_of_inside block 0
    (List.replicate (checksumBufSz payload.length) 0) (32 + i)
    (by rwa [List.length_replicate])
  rw [Nat.zero_add] at cleared
  rw [checksumBuf, storeBytes_of_outside (by omega),
    storeBytes_of_outside (by rw [length_bytesAt]; omega),
    storeBytes_of_outside (by rw [length_bytesAt]; omega), cleared]
  simp [inside]

theorem checksumBufSz_eq (payloadLen : Nat) :
    checksumBufSz payloadLen = 12 + (20 + (payloadLen + payloadLen % 2)) := by
  simp only [checksumBufSz]
  split
  · omega
  · omega

/-- A buffer that holds the parts one behind the other. -/
theorem bytesAt_parts {memory : Bytes} (pseudo : ∀ i < 12, memory i = pheader i)
    (middle : ∀ i < 20, memory (12 + i) = header i)
    (data : ∀ i < payload.length, memory (32 + i) = payload.getD i 0)
    (padding : ∀ i < payload.length + payload.length % 2, payload.length ≤ i →
      memory (32 + i) = 0) :
    bytesAt memory (checksumBufSz payload.length) =
      bytesAt pheader 12 ++
        (bytesAt header 20 ++ (payload ++ List.replicate (payload.length % 2) 0)) := by
  rw [checksumBufSz_eq, bytesAt_add, bytesAt_add, bytesAt_add, bytesAt_congr pseudo,
    bytesAt_congr middle]
  congr 2
  have shifted (i : Nat) : memory (12 + (20 + i)) = memory (32 + i) :=
    congrArg memory (by omega)
  simp only [shifted]
  congr 1
  · exact bytesAt_stored rfl data
  · apply bytesAt_stored List.length_replicate
    intro i inside
    rw [padding (payload.length + i) (by omega) (by omega)]
    simp [inside]

/-- A store into the header's part of the buffer is one into the header. -/
theorem bytesAt_store16_checksumBuf (checksum : UInt16) :
    bytesAt (store16 (checksumBuf block header pheader payload) 28 checksum)
        (checksumBufSz payload.length) =
      bytesAt pheader 12 ++ (bytesAt (store16 header 16 checksum) 20 ++
        (payload ++ List.replicate (payload.length % 2) 0)) := by
  apply bytesAt_parts
  · intro i inside
    rw [store16_of_outside (by omega), checksumBuf_pheader inside]
  · intro i inside
    have first : 12 + i = 28 ↔ i = 16 := by omega
    have second : 12 + i = 28 + 1 ↔ i = 16 + 1 := by omega
    simp only [store16, checksumBuf_header inside, first, second]
  · intro i inside
    rw [store16_of_outside (by omega), checksumBuf_payload inside]
  · intro i inside behind
    rw [store16_of_outside (by omega)]
    exact checksumBuf_padding (by rw [checksumBufSz_eq]; omega) behind

end Buffer

section Pseudo

variable {destIp : UInt32} {payloadLen : Nat}

/-- The pseudo header as it stands in network order. -/
theorem tcpPseudo_fields :
    big32 (tcpPseudoSwapped (tcpPseudo destIp payloadLen)) 0 = ourIpAddress ∧
      big32 (tcpPseudoSwapped (tcpPseudo destIp payloadLen)) 4 = destIp ∧
      big16 (tcpPseudoSwapped (tcpPseudo destIp payloadLen)) 8 = 6 ∧
      big16 (tcpPseudoSwapped (tcpPseudo destIp payloadLen)) 10 = .ofNat (20 + payloadLen) := by
  have protoAt : tcpPseudoSwapped (tcpPseudo destIp payloadLen) 9 = 6 := by
    simp (disch := omega) only [tcpPseudoSwapped, tcpPseudo, swap16_of_outside, swap32_of_outside,
      store16_of_outside, Function.update_self]
    rfl
  have reservedAt : tcpPseudoSwapped (tcpPseudo destIp payloadLen) 8 = 0 := by
    simp (disch := omega) only [tcpPseudoSwapped, tcpPseudo, swap16_of_outside, swap32_of_outside,
      store16_of_outside, store32_of_outside, Function.update_of_ne]
  refine ⟨?_, ?_, ?_, ?_⟩
  · simp (disch := omega) only [tcpPseudoSwapped, tcpPseudo, big32_swap16_of_apart,
      big32_swap32_of_apart, big32_swap32, load32_store16_of_apart, load32_update_of_apart,
      load32_store32_of_apart, load32_store32]
  · simp (disch := omega) only [tcpPseudoSwapped, tcpPseudo, big32_swap16_of_apart, big32_swap32,
      load32_swap32_of_apart, load32_store16_of_apart, load32_update_of_apart, load32_store32]
  · rw [big16, reservedAt, protoAt]
    rfl
  · simp (disch := omega) only [tcpPseudoSwapped, tcpPseudo, big16_swap16,
      load16_swap32_of_apart, load16_store16]

/-- The words of the pseudo header are those of the standard. -/
theorem networkWords_tcpPseudo (fits : 20 + payloadLen < 2 ^ 16) :
    networkWords (bytesAt (tcpPseudoSwapped (tcpPseudo destIp payloadLen)) 12) =
      pseudoWords ourIpAddress.toNat destIp.toNat (20 + payloadLen) := by
  rcases @tcpPseudo_fields destIp payloadLen with ⟨source, destination, proto, length⟩
  have sourceHalves := toNat_big32_halves (tcpPseudoSwapped (tcpPseudo destIp payloadLen)) 0
  have destinationHalves := toNat_big32_halves (tcpPseudoSwapped (tcpPseudo destIp payloadLen)) 4
  rw [source] at sourceHalves
  rw [destination] at destinationHalves
  have lengthNat : (UInt16.ofNat (20 + payloadLen)).toNat = 20 + payloadLen :=
    UInt16.toNat_ofNat_of_lt' fits
  rw [networkWords_bytesAt _ 6]
  generalize tcpPseudoSwapped (tcpPseudo destIp payloadLen) = pseudo at *
  have sourceLow := (big16 pseudo (0 + 2)).toNat_lt
  have destinationLow := (big16 pseudo (4 + 2)).toNat_lt
  change [(big16 pseudo 0).toNat, (big16 pseudo (0 + 2)).toNat, (big16 pseudo 4).toNat,
    (big16 pseudo (4 + 2)).toNat, (big16 pseudo 8).toNat, (big16 pseudo 10).toNat] = _
  rw [proto, length, lengthNat, pseudoWords, sourceHalves, destinationHalves]
  have high {high low : Nat} (bound : low < 2 ^ 16) : (high * 2 ^ 16 + low) / 2 ^ 16 = high := by
    omega
  have rest {high low : Nat} (bound : low < 2 ^ 16) : (high * 2 ^ 16 + low) % 2 ^ 16 = low := by
    omega
  rw [high sourceLow, rest sourceLow, high destinationLow, rest destinationLow]
  rfl

end Pseudo

section Header

variable {header : TcpHeader}

/-- The flags are read off the byte bit by bit. -/
theorem flagsByte_bits :
    header.flagsByte.toBitVec.getLsbD 0 = header.fin ∧
      header.flagsByte.toBitVec.getLsbD 1 = header.syn ∧
      header.flagsByte.toBitVec.getLsbD 2 = header.rst ∧
      header.flagsByte.toBitVec.getLsbD 3 = header.psh ∧
      header.flagsByte.toBitVec.getLsbD 4 = header.ack ∧
      header.flagsByte.toBitVec.getLsbD 5 = header.urg ∧
      header.flagsByte.toBitVec.getLsbD 6 = header.ece ∧
      header.flagsByte.toBitVec.getLsbD 7 = header.cwr := by
  simp only [TcpHeader.flagsByte, BitVec.getLsbD_append]
  simp

theorem offsetByte_halves :
    header.offsetByte.toBitVec.setWidth 4 = header.reserved0 ∧
      (header.offsetByte.toBitVec >>> 4).setWidth 4 = header.dataOffset := by
  have bits (i : Nat) := @BitVec.getLsbD_append _ _ i header.dataOffset header.reserved0
  constructor
  · apply BitVec.eq_of_getLsbD_eq
    intro i bound
    rw [BitVec.getLsbD_setWidth]
    exact (congrArg _ (bits i)).trans (by simp [bound])
  · apply BitVec.eq_of_getLsbD_eq
    intro i bound
    rw [BitVec.getLsbD_setWidth, BitVec.getLsbD_ushiftRight]
    exact (congrArg _ (bits (4 + i))).trans (by simp [bound])

/-- A header in memory reads as its fields. -/
theorem tcpHeaderAt_bytes : tcpHeaderAt header.bytes 0 = header := by
  have offset : header.bytes 12 = header.offsetByte := by
    simp (disch := omega) only [TcpHeader.bytes, store16_of_outside, Function.update_of_ne,
      Function.update_self]
  have flags : header.bytes 13 = header.flagsByte := by
    simp (disch := omega) only [TcpHeader.bytes, store16_of_outside, Function.update_self]
  rcases @flagsByte_bits header with ⟨fin, syn, rst, psh, ack, urg, ece, cwr⟩
  rcases @offsetByte_halves header with ⟨low, high⟩
  simp only [tcpHeaderAt, Nat.zero_add, offset, flags, fin, syn, rst, psh, ack, urg, ece, cwr,
    low, high]
  simp (disch := omega) only [TcpHeader.bytes, load16_store16_of_apart, load16_update_of_apart,
    load16_store32_of_apart, load16_store16, load32_store16_of_apart, load32_update_of_apart,
    load32_store32_of_apart, load32_store32]

/-- Each field that `tcp_swap_endian` exchanges stands in network order. -/
theorem tcpHeaderFrom_swapped (memory : Bytes) (header : Nat) :
    tcpHeaderFrom (tcpSwappedMemory memory header) header = tcpHeaderAt memory header := by
  have bits (i : Nat) (low : 12 ≤ i) (high : i < 14) :
      tcpSwappedMemory memory header (header + i) = memory (header + i) := by
    simp (disch := omega) only [tcpSwappedMemory, swap16_of_outside, swap32_of_outside]
  simp (disch := omega) only [tcpHeaderFrom, tcpHeaderAt, bits]
  simp (disch := omega) only [tcpSwappedMemory, big16_swap16, big32_swap32,
    big16_swap16_of_apart, big16_swap32_of_apart, big32_swap16_of_apart, big32_swap32_of_apart,
    load16_swap16_of_apart, load16_swap32_of_apart, load32_swap16_of_apart,
    load32_swap32_of_apart]

/-- A swapped header reads in network order as it was passed. -/
theorem tcpHeaderFrom_swapped_bytes :
    tcpHeaderFrom (tcpSwappedMemory header.bytes 0) 0 = header := by
  rw [tcpHeaderFrom_swapped, tcpHeaderAt_bytes]

/-- The checksum stands in a field of its own. -/
theorem tcpHeaderFrom_store16 (memory : Bytes) (checksum : UInt16) :
    tcpHeaderFrom (store16 memory 16 checksum) 0 =
      { tcpHeaderFrom memory 0 with checksum := swapped16 checksum } := by
  have byte (i : Nat) (apart : i < 16 ∨ 18 ≤ i) : store16 memory 16 checksum i = memory i :=
    store16_of_outside apart
  have half (place : Nat) (apart : place + 2 ≤ 16 ∨ 18 ≤ place) :
      big16 (store16 memory 16 checksum) place = big16 memory place :=
    big16_congr fun _ _ => byte _ (by omega)
  have word (place : Nat) (apart : place + 4 ≤ 16) :
      big32 (store16 memory 16 checksum) place = big32 memory place :=
    big32_congr fun _ _ => byte _ (by omega)
  have stored : big16 (store16 memory 16 checksum) 16 = swapped16 checksum := by
    rw [big16_eq_swapped16, load16_store16]
  simp only [tcpHeaderFrom, tcpHeaderAt, Nat.zero_add, half 0 (by omega), half 2 (by omega),
    word 4 (by omega), word 8 (by omega), byte 12 (by omega), byte 13 (by omega),
    half 14 (by omega), half 18 (by omega), stored]

end Header

section Loop

/-- A loop that no carry is left of has ended, by induction on its rounds. -/
theorem foldsTo_addCarries {fuel : Nat} {sum : UInt32}
    (ended : (addCarries fuel sum).toNat < 2 ^ 16) : FoldsTo sum (addCarries fuel sum) := by
  have noCarry {word : UInt32} (small : word.toNat < 2 ^ 16) : word >>> 16 = 0 := by
    apply UInt32.toNat_inj.mp
    simp [UInt32.toNat_shiftRight, Nat.shiftRight_eq_div_pow]
    omega
  induction fuel generalizing sum with
  | zero => exact .leaves (noCarry ended)
  | succ fuel ih =>
      rw [addCarries] at ended ⊢
      split at ended
      · rename_i leaves
        rw [if_pos leaves]
        exact .leaves leaves
      · rename_i again
        rw [if_neg again]
        exact .again again (ih ended)

end Loop

section Segment

variable {block : Bytes} {tx : TcpTx}

theorem tcpTx_payload (fits : tx.payload.length ≤ 65515) :
    (tcpTx block tx).payload = bytesAt (tcpTxHeader block tx) 20 ++ tx.payload := by
  have total : (UInt16.ofNat (20 + tx.payload.length)).toNat = 20 + tx.payload.length :=
    UInt16.toNat_ofNat_of_lt' (show 20 + tx.payload.length < 2 ^ 16 by omega)
  rw [tcpTx, total]
  apply List.take_of_length_le
  rw [List.length_append, length_bytesAt]

/-- The half-words that are added reach to the end of the buffer. -/
theorem two_mul_halves (payloadLen : Nat) :
    2 * (checksumBufSz payloadLen / 2) = checksumBufSz payloadLen := by
  rw [checksumBufSz_eq]
  omega

theorem room_for_halves {payloadLen : Nat} (fits : payloadLen ≤ 65515) :
    65535 * (checksumBufSz payloadLen / 2) < 2 ^ 32 := by
  rw [checksumBufSz_eq]
  omega

/-- The field of the checksum is clear while the sum is computed. -/
theorem checksum_cleared (cleared : tx.header.checksum = 0) :
    load16 (tcpTxChecksumBuf block tx) (2 * 14) = 0 := by
  have low : tcpTxChecksumBuf block tx (12 + 16) = tcpSwappedMemory tx.header.bytes 0 16 :=
    checksumBuf_header (by decide)
  have high : tcpTxChecksumBuf block tx (12 + 17) = tcpSwappedMemory tx.header.bytes 0 17 :=
    checksumBuf_header (by decide)
  have inHeader : load16 (tcpTxChecksumBuf block tx) (2 * 14) =
      load16 (tcpSwappedMemory tx.header.bytes 0) 16 := by
    rw [load16, load16, ← low, ← high]
  have field : big16 (tcpSwappedMemory tx.header.bytes 0) 16 = tx.header.checksum :=
    congrArg TcpHeader.checksum tcpHeaderFrom_swapped_bytes
  rw [inHeader, load16_eq_swapped16, field, cleared]
  rfl

/-- The half-word with the protocol is never zero. -/
theorem protocol_nonzero : big16 (tcpTxChecksumBuf block tx) (2 * 4) ≠ 0 := by
  have reserved : tcpTxChecksumBuf block tx 8 =
      tcpPseudoSwapped (tcpPseudo tx.destIp tx.payload.length) 8 :=
    checksumBuf_pheader (by decide)
  have proto : tcpTxChecksumBuf block tx 9 =
      tcpPseudoSwapped (tcpPseudo tx.destIp tx.payload.length) 9 :=
    checksumBuf_pheader (by decide)
  rcases @tcpPseudo_fields tx.destIp tx.payload.length with ⟨_, _, six, _⟩
  rw [big16, ← reserved, ← proto] at six
  rw [big16, six]
  decide

/-- A receiver reads the header that was passed, with the checksum in its field. -/
theorem tcpHeaderFrom_tcpTx (fits : tx.payload.length ≤ 65515) :
    tcpHeaderFrom (fun i => (tcpTx block tx).payload.getD i 0) 0 =
      { tx.header with
        checksum := swapped16 (halvesChecksum (tcpTxChecksumBuf block tx)
          (checksumBufSz tx.payload.length / 2)) } := by
  have inHeader (i : Nat) (inside : i < 20) :
      (tcpTx block tx).payload.getD i 0 = tcpTxHeader block tx i := by
    rw [tcpTx_payload fits, List.getD_eq_getElem?_getD,
      List.getElem?_append_left (by rwa [length_bytesAt])]
    simp [bytesAt, inside]
  have header : tcpHeaderFrom (fun i => (tcpTx block tx).payload.getD i 0) 0 =
      tcpHeaderFrom (tcpTxHeader block tx) 0 :=
    tcpHeaderFrom_congr fun i inside => by simpa using inHeader i inside
  have stored := tcpHeaderFrom_store16 (tcpSwappedMemory tx.header.bytes 0)
    (halvesChecksum (tcpTxChecksumBuf block tx)
      (checksumBufSz tx.payload.length / 2))
  rw [tcpHeaderFrom_swapped_bytes] at stored
  exact header.trans stored

/-- What the receiver adds up are the words of the buffer with the checksum stored in
it. -/
theorem networkWords_checksumBuf (fits : tx.payload.length ≤ 65515) :
    networkWords (bytesAt
        (store16 (tcpTxChecksumBuf block tx) (2 * 14)
          (halvesChecksum (tcpTxChecksumBuf block tx)
            (checksumBufSz tx.payload.length / 2)))
        (checksumBufSz tx.payload.length)) =
      pseudoWords ourIpAddress.toNat tx.destIp.toNat (20 + tx.payload.length) ++
        networkWords (tcpTx block tx).payload := by
  have evenHeader : (bytesAt (tcpTxHeader block tx) 20).length % 2 = 0 := by
    rw [length_bytesAt]
  have parts := @bytesAt_store16_checksumBuf block (tcpSwappedMemory tx.header.bytes 0)
    (tcpPseudoSwapped (tcpPseudo tx.destIp tx.payload.length)) tx.payload
    (halvesChecksum (tcpTxChecksumBuf block tx)
      (checksumBufSz tx.payload.length / 2))
  change bytesAt (store16 (tcpTxChecksumBuf block tx) (2 * 14) _) _ =
    _ ++ (bytesAt (tcpTxHeader block tx) 20 ++ _) at parts
  rw [parts, networkWords_append (by rw [length_bytesAt]), networkWords_tcpPseudo (by omega),
    networkWords_append evenHeader, networkWords_padded, tcpTx_payload fits,
    networkWords_append evenHeader]

theorem segmentCarries_tcpTx (fits : tx.payload.length ≤ 65515) :
    SegmentCarries tx (tcpTx block tx).payload := by
  refine ⟨?_, ?_, _, tcpHeaderFrom_tcpTx fits⟩
  · rw [tcpTx_payload fits, List.length_append, length_bytesAt]
  · rw [tcpTx_payload fits, List.drop_left' (length_bytesAt _ _)]

/-- Every segment that is sent verifies, whatever its header and its payload: the sum
over the buffer is the exact one, and the loop over its carries ends. -/
theorem tcpTx_verifies (block : Bytes) (tx : TcpTx) (cleared : tx.header.checksum = 0)
    (fits : tx.payload.length ≤ 65515) :
    (tcpTx block tx).protocol = 6 ∧ (tcpTx block tx).dstIp = tx.destIp ∧
      SegmentCarries tx (tcpTx block tx).payload ∧
      SegmentVerifies tx.destIp (tcpTx block tx).payload ∧
      (∀ count ≤ checksumBufSz tx.payload.length / 2,
        (halvesSum (tcpTxChecksumBuf block tx) count).toNat =
          (loadedWords (tcpTxChecksumBuf block tx) count).sum) ∧
      ∀ sum, FoldsTo sum (addCarries 2 sum) := by
  have room := room_for_halves fits
  have carried : SegmentCarries tx (tcpTx block tx).payload := segmentCarries_tcpTx fits
  have many : 14 < checksumBufSz tx.payload.length / 2 := by
    rw [checksumBufSz_eq]
    omega
  have verified := onesSum_checksum room many (checksum_cleared cleared)
    ⟨4, by omega, by decide, @protocol_nonzero block tx⟩
  rw [two_mul_halves, networkWords_checksumBuf fits, ← carried.1] at verified
  refine ⟨rfl, rfl, carried, verified, ?_, ?_⟩
  · intro count bound
    exact toNat_halvesSum _ (by omega)
  · intro sum
    exact foldsTo_addCarries (addCarries_two sum)

/-- A segment of three bytes of payload, which the buffer has to fill up. -/
def oddTx : TcpTx where
  header :=
    { TcpHeader.zero with
      sourcePort := 65355
      destPort := 80
      seqN := 1024
      ackN := 7
      dataOffset := 5
      psh := true
      ack := true
      windowSz := 127 }
  destIp := 0xC0A80007
  payload := [0x68, 0x69, 0x21]

theorem oddTx_verifies :
    oddTx.header.checksum = 0 ∧ oddTx.payload.length = 3 ∧
      SegmentVerifies oddTx.destIp (tcpTx (fun _ => 0xff) oddTx).payload :=
  ⟨rfl, rfl, (tcpTx_verifies (fun _ => 0xff) oddTx rfl (by decide)).2.2.2.1⟩

end Segment

end Lpc17xx.Tcp
