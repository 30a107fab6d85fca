import Lpc17xx.Emac.Transmit
import Lpc17xx.Cbuf.Fifo
import Mathlib.Data.List.GetD

/-!
# A frame in two descriptors

The control words that `emac_xmit_frame` writes, and what memory holds of a frame once
`ether_xmit_payload` has built the header.  The descriptor of the payload counts its
bytes in 11 bits.
-/

namespace Lpc17xx.Emac

open Lpc17xx.Cbuf
open Lpc17xx.Memory
open Lpc17xx.Protocol
open Lpc17xx.Queue

/-! ## The control words -/

/-- The number of bytes of a payload that its descriptor asks for. -/
def xmitLen (payloadLen : Nat) : Nat :=
  (payloadLen - 1) % 2048 + 1

/-- What the controller sends of a frame. -/
def onWire (frame : List UInt8) : List UInt8 :=
  frame.take (14 + xmitLen (frame.length - 14))

theorem xmitLen_le {payloadLen : Nat} (nonempty : 0 < payloadLen) :
    xmitLen payloadLen ≤ payloadLen := by
  have below := Nat.mod_le (payloadLen - 1) 2048
  unfold xmitLen
  omega

/-- The whole frame goes out exactly if its payload is not longer than 11 bits can say. -/
theorem onWire_eq_self_iff {frame : List UInt8} (nonempty : 14 < frame.length) :
    onWire frame = frame ↔ frame.length ≤ 14 + 2048 := by
  unfold onWire xmitLen
  rw [List.take_eq_self_iff]
  omega

/-- The descriptor of the header. -/
def Xmit.headerDesc (xmit : Xmit) : TxrxDescriptor :=
  ⟨xmit.header, 14 - 1⟩

/-- The descriptor of the payload. -/
def Xmit.payloadDesc (xmit : Xmit) : TxrxDescriptor :=
  ⟨xmit.txdPkt.payload, (xmit.txdPkt.payloadLen.toUInt32 - (1 : UInt32)) ||| (1 : UInt32) <<< 30⟩

theorem size_headerDesc (xmit : Xmit) : xmit.headerDesc.size = 14 := by
  have word : (((14 : UInt32) - (1 : UInt32)) &&& (0x7FF : UInt32)).toNat = 13 := by decide
  rw [TxrxDescriptor.size, Xmit.headerDesc, word]

theorem not_isLast_headerDesc (xmit : Xmit) : xmit.headerDesc.isLast = false := by
  have bit : ((14 : UInt32) - (1 : UInt32)) &&& (1 : UInt32) <<< 30 = 0 := by decide
  exact decide_eq_false (not_not_intro bit)

theorem size_payloadDesc {xmit : Xmit} (nonempty : 0 < xmit.txdPkt.payloadLen.toNat) :
    xmit.payloadDesc.size = xmitLen xmit.txdPkt.payloadLen.toNat := by
  have bound := xmit.txdPkt.payloadLen.toNat_lt
  have count : (xmit.txdPkt.payloadLen.toUInt32 - (1 : UInt32)).toNat =
      xmit.txdPkt.payloadLen.toNat - 1 := by
    have one : (1 : UInt32) ≤ xmit.txdPkt.payloadLen.toUInt32 := by
      rw [UInt32.le_iff_toNat_le]
      simpa [Nat.one_le_iff_ne_zero] using nonempty.ne'
    rw [UInt32.toNat_sub_of_le _ _ one]
    simp
  have word : ((xmit.txdPkt.payloadLen.toUInt32 - (1 : UInt32) ||| (1 : UInt32) <<< 30) &&&
      (0x7FF : UInt32)).toNat =
      (xmit.txdPkt.payloadLen.toNat - 1) % 2 ^ 11 := by
    rw [UInt32.toNat_and, UInt32.toNat_or, count]
    refine (Nat.and_two_pow_sub_one_eq_mod _ 11).trans ?_
    rw [Nat.or_mod_two_pow]
    exact Nat.or_zero _
  rw [TxrxDescriptor.size, Xmit.payloadDesc, word]
  rfl

theorem isLast_payloadDesc (xmit : Xmit) : xmit.payloadDesc.isLast = true := by
  refine decide_eq_true fun zero => ?_
  have set : Nat.testBit 1073741824 30 = true := by decide
  have bit := congrArg (fun word : UInt32 => word.toNat.testBit 30) zero
  simp [Xmit.payloadDesc, set] at bit

/-! ## What memory holds for a packet -/

/-- The first 14 bytes of a frame. -/
def etherHeader (packet : EtherTxPkt) : List UInt8 :=
  packet.dhost ++ etherAddr ++
    bytesAt (swap16 (store16 (fun _ => 0) 0 packet.etherType) 0) 2

theorem length_etherHeader {packet : EtherTxPkt} (addressed : packet.dhost.length = 6) :
    (etherHeader packet).length = 14 := by
  simp [etherHeader, addressed, etherAddr]

theorem etherXmitPayload_eq_append (packet : EtherTxPkt) :
    etherXmitPayload packet = etherHeader packet ++ packet.payload :=
  rfl

/-- The frame that the task has in hand. -/
def Xmit.frameIn (xmit : Xmit) (memory : Bytes) : List UInt8 :=
  etherXmitPayload (xmit.txdPkt.packetIn memory)

/-- The block of the header holds the header. -/
def Xmit.Built (xmit : Xmit) (memory : Bytes) : Prop :=
  ∀ i < 14, memory (xmit.header + i) = (etherHeader (xmit.txdPkt.packetIn memory)).getD i 0

section Contents

variable {memory memory' : Bytes} {txdPkt : TxdPkt} {xmit : Xmit}

theorem TxdPkt.packetIn_congr (same : Same memory memory' txdPkt.payloadBlock) :
    txdPkt.packetIn memory' = txdPkt.packetIn memory := by
  have payload : bytesAt (fun i => memory' (txdPkt.payload + i)) txdPkt.payloadLen.toNat =
      bytesAt (fun i => memory (txdPkt.payload + i)) txdPkt.payloadLen.toNat :=
    bytesAt_congr same
  rw [packetIn, payload, packetIn]

theorem Xmit.Built.congr (built : xmit.Built memory)
    (same : Same memory memory' xmit.headerBlock) : xmit.Built memory' :=
  fun i bound => (same i bound).trans (built i bound)

/-- The type in network order, wherever it is stored. -/
theorem swap16_store16 (memory : Bytes) (address : Nat) (word : UInt16) {i : Nat} (bound : i < 2) :
    swap16 (store16 memory address word) address (address + i) =
      (bytesAt (swap16 (store16 (fun _ => 0) 0 word) 0) 2).getD i 0 := by
  simp only [swap16, load16_store16]
  interval_cases i <;> simp [bytesAt, store16, List.range_succ]

/-- `ether_xmit_payload` builds the header. -/
theorem built_headerBuilt (memory : Bytes) (header : Nat) (stage : XmitStage)
    (addressed : txdPkt.dhost.length = 6) :
    Xmit.Built ⟨txdPkt, header, stage⟩ (Transmitter.headerBuilt memory header txdPkt) := by
  intro i bound
  have sender : etherAddr.length = 6 := rfl
  have addresses : (txdPkt.dhost ++ etherAddr).length = 12 := by
    rw [List.length_append, addressed, sender]
  change Transmitter.headerBuilt memory header txdPkt (header + i) =
    (txdPkt.dhost ++ etherAddr ++ bytesAt (swap16 (store16 (fun _ => 0) 0 txdPkt.etherType) 0)
      2).getD i 0
  unfold Transmitter.headerBuilt
  rcases Nat.lt_or_ge i 12 with address | type
  · rw [swap16_of_outside (by omega), store16_of_outside (by omega),
      List.getD_append _ _ _ _ (by omega)]
    rcases Nat.lt_or_ge i 6 with destination | source
    · rw [storeBytes_of_outside (by omega), storeBytes_of_inside (by omega),
        List.getD_append _ _ _ _ (by omega)]
    · obtain ⟨j, rfl⟩ := Nat.exists_eq_add_of_le source
      rw [← Nat.add_assoc, storeBytes_of_inside (by omega),
        List.getD_append_right _ _ _ _ (by omega), addressed, Nat.add_sub_cancel_left]
  · obtain ⟨j, rfl⟩ := Nat.exists_eq_add_of_le type
    rw [← Nat.add_assoc, swap16_store16 _ _ _ (by omega),
      List.getD_append_right _ _ _ _ (by omega), addresses, Nat.add_sub_cancel_left]

/-- Memory elsewhere is left alone. -/
theorem headerBuilt_of_outside {header address : Nat} (addressed : txdPkt.dhost.length = 6)
    (outside : address < header ∨ header + 14 ≤ address) :
    Transmitter.headerBuilt memory header txdPkt address = memory address := by
  have sender : etherAddr.length = 6 := rfl
  unfold Transmitter.headerBuilt
  rw [swap16_of_outside (by omega), store16_of_outside (by omega),
    storeBytes_of_outside (by omega), storeBytes_of_outside (by omega)]

theorem length_frameIn (addressed : xmit.txdPkt.dhost.length = 6) :
    (xmit.frameIn memory).length = 14 + xmit.txdPkt.payloadLen.toNat := by
  rw [Xmit.frameIn, etherXmitPayload_eq_append, List.length_append,
    length_etherHeader (by exact addressed), TxdPkt.packetIn, length_bytesAt]

/-- The bytes of the frame, where the controller finds them. -/
theorem getElem?_frameIn_header (built : xmit.Built memory)
    (addressed : xmit.txdPkt.dhost.length = 6) {i : Nat} (bound : i < 14) :
    (xmit.frameIn memory)[i]? = some (memory (xmit.header + i)) := by
  have size : (etherHeader (xmit.txdPkt.packetIn memory)).length = 14 :=
    length_etherHeader addressed
  rw [Xmit.frameIn, etherXmitPayload_eq_append, List.getElem?_append_left (by omega), built i bound,
    List.getD_eq_getElem _ _ (by omega), List.getElem?_eq_getElem]

theorem getElem?_frameIn_payload (addressed : xmit.txdPkt.dhost.length = 6) {i : Nat}
    (bound : i < xmit.txdPkt.payloadLen.toNat) :
    (xmit.frameIn memory)[14 + i]? = some (memory (xmit.txdPkt.payload + i)) := by
  have size : (etherHeader (xmit.txdPkt.packetIn memory)).length = 14 :=
    length_etherHeader addressed
  rw [Xmit.frameIn, etherXmitPayload_eq_append, List.getElem?_append_right (by omega), size,
    Nat.add_sub_cancel_left]
  simp [TxdPkt.packetIn, bytesAt, bound]

end Contents

end Lpc17xx.Emac
