import Lpc17xx.Emac.Reassembly
import Lpc17xx.Emac.Receive
import Lpc17xx.Cbuf.Fifo
import Mathlib.Data.Nat.Bitwise

/-!
# What comes in is handed on

The controller writes to the fragment buffers only and never to one that `irq_enet` has
still to read, so the ring in memory is the ring of fragments.  A frame that fits one
buffer, or fills two, is handed to `packet_inject` byte for byte, whatever the heap
holds.
-/

namespace Lpc17xx.Emac

open Lpc17xx.Cbuf
open Lpc17xx.Memory
open Lpc17xx.Stream
open Lpc17xx.Transition

/-! ## The words of the controller -/

theorem size_rxDescriptor (packet : Nat) : (rxDescriptor packet).size = rxFragBufSz := by
  have word : (((126 : UInt32) ||| (1 : UInt32) <<< 31) &&& (0x7FF : UInt32)).toNat = 126 := by
    decide
  rw [TxrxDescriptor.size, rxDescriptor, word]
  rfl

section Status

variable {other : UInt32} {size : Nat} {last : Bool}

theorem toNat_statusWord (bound : size ≤ 2048) :
    (statusWord other size last).toNat =
      other.toNat &&& 0xBFFFF800 ||| (size - 1) ||| (if last then 2 ^ 30 else 0) := by
  have count : (UInt32.ofNat (size - 1)).toNat = size - 1 :=
    UInt32.toNat_ofNat_of_lt' (by rw [UInt32.size]; omega)
  rw [statusWord, UInt32.toNat_or, UInt32.toNat_or, UInt32.toNat_and, count]
  cases last <;> rfl

theorem fragLen_statusWord (positive : 0 < size) (bound : size ≤ 2048) :
    fragLen (statusWord other size last) = size := by
  have low : (statusWord other size last &&& 0x7FF).toNat = size - 1 := by
    rw [UInt32.toNat_and, toNat_statusWord bound]
    refine (Nat.and_two_pow_sub_one_eq_mod _ 11).trans ?_
    rw [Nat.or_mod_two_pow, Nat.or_mod_two_pow, Nat.and_mod_two_pow,
      Nat.mod_eq_of_lt (show size - 1 < 2 ^ 11 by omega)]
    cases last <;> simp
  rw [fragLen, low]
  omega

theorem isLast_statusWord (bound : size ≤ 2048) :
    decide ((statusWord other size last &&& (1 : UInt32) <<< 30) ≠ 0) = last := by
  have bit : (statusWord other size last).toNat.testBit 30 = last := by
    rw [toNat_statusWord bound, Nat.testBit_or, Nat.testBit_or, Nat.testBit_and,
      Nat.testBit_lt_two_pow (show size - 1 < 2 ^ 30 by omega)]
    have mask : Nat.testBit 0xBFFFF800 30 = false := by decide
    have set : Nat.testBit 1073741824 30 = true := by decide
    rw [mask]
    cases last with
    | true => simp [set]
    | false => simp
  have word : (statusWord other size last &&& (1 : UInt32) <<< 30).toNat =
      last.toNat * 2 ^ 30 := by
    have shift : ((1 : UInt32) <<< 30).toNat = 2 ^ 30 := by decide
    rw [UInt32.toNat_and, shift, Nat.and_two_pow, bit]
  cases last with
  | true =>
      refine decide_eq_true fun zero => ?_
      rw [zero] at word
      simp at word
  | false =>
      refine decide_eq_false (not_not_intro ?_)
      exact UInt32.toNat_inj.mp (word.trans (by simp))

end Status

namespace Receiver

/-- The descriptor has a fragment that `irq_enet` has still to read. -/
def Pending (s : Receiver) (index : Fin descLen) : Prop :=
  index - s.rxConsumeIndex < s.rxProduceIndex - s.rxConsumeIndex

/-- The fragments that have been received, as complete frames and the rest. -/
abbrev framed (fragments : List Fragment) : List (List Fragment) × List Fragment :=
  groups Fragment.isLast fragments

/-- What the controller has put in the buffer at hand. -/
def partialBytes (s : Receiver) : List UInt8 :=
  bytesAt (fun i => s.memory ((s.rxDesc s.rxProduceIndex).packet + i)) s.offset

/-- The fragment buffers are where `emac_init` allocated them, apart from each other, and
none of them is overrun. -/
structure Sound (packet : Fin descLen → Nat) (s : Receiver) : Prop where
  desc : ∀ index, s.rxDesc index = rxDescriptor (packet index)
  apart : ∀ index index', index ≠ index' →
    Apart (packet index, rxFragBufSz) (packet index', rxFragBufSz)
  offset : s.offset < rxFragBufSz
  fits : ∀ index, s.Pending index → fragLen (s.rxStatus index) ≤ rxFragBufSz

/-- The driver with whole fragments is where the receiver is. -/
structure Follows (s : Receiver) (driver : Driver) : Prop where
  ringed : driver.Ringed
  reassembled : driver.Reassembled
  produce : driver.rxProduceIndex = s.rxProduceIndex.val
  consume : driver.rxConsumeIndex = s.rxConsumeIndex.val
  inIrq : driver.inIrq = s.inIrq
  currentFrame : driver.currentFrame = s.currentFrame
  currentFrameLen : driver.currentFrameLen = s.currentFrameLen
  injected : driver.injected = s.injected
  held : ∀ index, s.Pending index → driver.rxDesc.getD index default = s.fragmentAt index

/-- What has come is in the fragments and in the buffer at hand.  A frame that is not
complete fills at most one buffer, and a fragment that continues a frame is as long as
what it continues. -/
structure Gathered (s : Receiver) (fragments : List Fragment) : Prop where
  arriving : s.arriving = joined (framed fragments).2 ++ s.partialBytes
  received : s.received = (framed fragments).1.map joined
  short : (framed fragments).2 = [] ∨ (joined (framed fragments).2).length = rxFragBufSz
  doubles : ∀ n fragment, fragments[n]? = some fragment →
    (framed (fragments.take n)).2 ≠ [] →
      fragment.bytes.length = (joined (framed (fragments.take n)).2).length

/-- The frames that come in fit one buffer, or fill two. -/
def Fits (s : Receiver) : ReceiveEvent → Prop
  | .byte _ last _ =>
      if last then s.arriving.length + 1 ≤ rxFragBufSz ∨ s.arriving.length + 1 = 2 * rxFragBufSz
      else s.arriving.length + 1 < 2 * rxFragBufSz
  | _ => True

instance (s : Receiver) : DecidablePred s.Fits
  | .byte _ last _ => inferInstanceAs (Decidable (if last then _ ∨ _ else _ < _))
  | .enter | .round _ | .leave | .write _ _ => inferInstanceAs (Decidable True)

theorem val_sub (first second : Fin descLen) :
    (first - second).val = (12 - second.val + first.val) % 12 :=
  rfl

theorem val_next (index : Fin descLen) : (index + 1).val = (index.val + 1) % descLen :=
  rfl

section Ring

variable {s : Receiver} {index : Fin descLen}

/-- The descriptor that the controller fills is none of these. -/
theorem Pending.ne (pending : s.Pending index) : index ≠ s.rxProduceIndex := by
  rintro rfl
  exact Nat.lt_irrefl _ pending

theorem pending_consume (ne : s.rxConsumeIndex ≠ s.rxProduceIndex) :
    s.Pending s.rxConsumeIndex := by
  have differ : s.rxConsumeIndex.val ≠ s.rxProduceIndex.val := fun same => ne (Fin.ext same)
  have consume := s.rxConsumeIndex.isLt
  have produce := s.rxProduceIndex.isLt
  change (s.rxConsumeIndex - s.rxConsumeIndex).val < (s.rxProduceIndex - s.rxConsumeIndex).val
  rw [val_sub, val_sub]
  unfold descLen at *
  omega

theorem pending_of_produce {produceIndex : Fin descLen}
    (next : produceIndex = s.rxProduceIndex + 1)
    (room : s.rxProduceIndex + 1 ≠ s.rxConsumeIndex)
    (pending : index - s.rxConsumeIndex < produceIndex - s.rxConsumeIndex) :
    s.Pending index ∨ index = s.rxProduceIndex := by
  have differ : (s.rxProduceIndex + 1).val ≠ s.rxConsumeIndex.val := fun same => room (Fin.ext same)
  have first := index.isLt
  have consume := s.rxConsumeIndex.isLt
  have produce := s.rxProduceIndex.isLt
  rw [next] at pending
  change (index - s.rxConsumeIndex).val < (s.rxProduceIndex + 1 - s.rxConsumeIndex).val at pending
  rw [or_iff_not_imp_right]
  intro other
  have unequal : index.val ≠ s.rxProduceIndex.val := fun same => other (Fin.ext same)
  change (index - s.rxConsumeIndex).val < (s.rxProduceIndex - s.rxConsumeIndex).val
  rw [val_sub, val_sub] at *
  rw [val_next] at pending differ
  unfold descLen at *
  omega

theorem pending_of_consume {consumeIndex : Fin descLen}
    (next : consumeIndex = s.rxConsumeIndex + 1) (ne : s.rxConsumeIndex ≠ s.rxProduceIndex)
    (pending : index - consumeIndex < s.rxProduceIndex - consumeIndex) : s.Pending index := by
  have differ : s.rxConsumeIndex.val ≠ s.rxProduceIndex.val := fun same => ne (Fin.ext same)
  have first := index.isLt
  have consume := s.rxConsumeIndex.isLt
  have produce := s.rxProduceIndex.isLt
  rw [next] at pending
  change (index - (s.rxConsumeIndex + 1)).val <
    (s.rxProduceIndex - (s.rxConsumeIndex + 1)).val at pending
  change (index - s.rxConsumeIndex).val < (s.rxProduceIndex - s.rxConsumeIndex).val
  rw [val_sub, val_sub] at *
  rw [val_next] at pending
  unfold descLen at *
  omega

end Ring

/-! ## A byte comes in -/

section Byte

variable {packet : Fin descLen → Nat} {s target : Receiver} {driver : Driver}
  {fragments : List Fragment} {index : Fin descLen} {value : UInt8} {last : Bool} {other : UInt32}

theorem bytes_fragmentAt (s : Receiver) (index : Fin descLen) :
    (s.fragmentAt index).bytes =
      bytesAt (fun i => s.memory ((s.rxDesc index).packet + i)) (fragLen (s.rxStatus index)) :=
  rfl

theorem isLast_fragmentAt (s : Receiver) (index : Fin descLen) :
    (s.fragmentAt index).isLast = decide ((s.rxStatus index &&& (1 : UInt32) <<< 30) ≠ 0) :=
  rfl

theorem fragmentAt_congr (desc : target.rxDesc index = s.rxDesc index)
    (status : target.rxStatus index = s.rxStatus index)
    (bytes : ∀ i < fragLen (s.rxStatus index),
      target.memory ((s.rxDesc index).packet + i) = s.memory ((s.rxDesc index).packet + i)) :
    target.fragmentAt index = s.fragmentAt index := by
  rw [fragmentAt, fragmentAt, Fragment.mk.injEq, desc, status]
  exact ⟨bytesAt_congr bytes, rfl⟩

/-- Memory with the byte in it. -/
def stored (s : Receiver) (value : UInt8) : Bytes :=
  Function.update s.memory s.storeAddress value

theorem Sound.stored_of_ne (sound : s.Sound packet) (ne : index ≠ s.rxProduceIndex) {i : Nat}
    (bound : i < rxFragBufSz) :
    s.stored value ((s.rxDesc index).packet + i) = s.memory ((s.rxDesc index).packet + i) := by
  have offset := sound.offset
  have apart := sound.apart index s.rxProduceIndex ne
  refine Function.update_of_ne ?_ _ _
  rw [storeAddress, sound.desc, sound.desc]
  simp only [Apart, rxDescriptor] at apart ⊢
  omega

/-- The bytes in the buffer at hand, with the new one. -/
theorem bytesAt_stored_value (s : Receiver) (value : UInt8) :
    bytesAt (fun i => s.stored value ((s.rxDesc s.rxProduceIndex).packet + i)) (s.offset + 1) =
      s.partialBytes ++ [value] := by
  have before : bytesAt (fun i => s.stored value ((s.rxDesc s.rxProduceIndex).packet + i))
      s.offset = s.partialBytes :=
    bytesAt_congr fun i bound => Function.update_of_ne (by rw [storeAddress]; omega) _ _
  have here : s.stored value ((s.rxDesc s.rxProduceIndex).packet + s.offset) = value :=
    Function.update_self _ _ _
  rw [bytesAt_add, before]
  simp [bytesAt, here]

theorem Sound.byte_within (sound : s.Sound packet) (within : s.offset + 1 < rxFragBufSz) :
    s.byte value false other = { s with
      memory := s.stored value
      arriving := s.arriving ++ [value]
      offset := s.offset + 1 } := by
  refine if_pos ⟨?_, rfl⟩
  rw [sound.desc, size_rxDescriptor]
  exact within

theorem Sound.byte_ends (sound : s.Sound packet)
    (ends : ¬(s.offset + 1 < rxFragBufSz ∧ last = false)) :
    s.byte value last other = { s with
      memory := s.stored value
      arriving := if last then [] else s.arriving ++ [value]
      received := if last then s.received ++ [s.arriving ++ [value]] else s.received
      offset := 0
      rxStatus := Function.update s.rxStatus s.rxProduceIndex
        (statusWord other (s.offset + 1) last)
      rxProduceIndex := s.rxProduceIndex + 1 } := by
  refine if_neg ?_
  rw [sound.desc, size_rxDescriptor]
  exact ends

theorem Sound.byte (sound : s.Sound packet) (room : s.rxProduceIndex + 1 ≠ s.rxConsumeIndex) :
    (s.byte value last other).Sound packet := by
  by_cases within : s.offset + 1 < rxFragBufSz ∧ last = false
  · obtain ⟨within, rfl⟩ := within
    rw [sound.byte_within within]
    exact ⟨sound.desc, sound.apart, within, sound.fits⟩
  · rw [sound.byte_ends within]
    refine ⟨sound.desc, sound.apart, Nat.succ_pos 126, fun index pending => ?_⟩
    have offset := sound.offset
    by_cases here : index = s.rxProduceIndex
    · rw [here]
      change fragLen (Function.update s.rxStatus s.rxProduceIndex _ s.rxProduceIndex) ≤ _
      rw [Function.update_self, fragLen_statusWord (Nat.succ_pos _) (by
        unfold rxFragBufSz at offset
        omega)]
      exact offset
    · change fragLen (Function.update s.rxStatus s.rxProduceIndex _ index) ≤ _
      rw [Function.update_of_ne here]
      exact sound.fits index ((pending_of_produce rfl room pending).resolve_right here)

/-- The fragment that the controller completes with the byte. -/
def completed (s : Receiver) (value : UInt8) (last : Bool) (other : UInt32) : Fragment :=
  (s.byte value last other).fragmentAt s.rxProduceIndex

theorem Sound.completed_eq (sound : s.Sound packet)
    (ends : ¬(s.offset + 1 < rxFragBufSz ∧ last = false)) :
    (s.completed value last other).bytes = s.partialBytes ++ [value] ∧
      (s.completed value last other).isLast = last := by
  have offset := sound.offset
  have bound : s.offset + 1 ≤ 2048 := by
    unfold rxFragBufSz at offset
    omega
  have status : (s.byte value last other).rxStatus s.rxProduceIndex =
      statusWord other (s.offset + 1) last := by
    rw [sound.byte_ends ends]
    exact Function.update_self _ _ _
  constructor
  · rw [← bytesAt_stored_value, completed, bytes_fragmentAt, status,
      fragLen_statusWord (Nat.succ_pos _) bound, sound.byte_ends ends]
  · rw [completed, isLast_fragmentAt, status, isLast_statusWord bound]

theorem Follows.byte_within (follows : s.Follows driver) (sound : s.Sound packet)
    (within : s.offset + 1 < rxFragBufSz) : (s.byte value false other).Follows driver := by
  rw [sound.byte_within within]
  refine ⟨follows.ringed, follows.reassembled, follows.produce, follows.consume, follows.inIrq,
    follows.currentFrame, follows.currentFrameLen, follows.injected, fun index pending => ?_⟩
  refine (follows.held index pending).trans ?_
  symm
  refine fragmentAt_congr rfl rfl fun i bound => ?_
  exact sound.stored_of_ne (Pending.ne pending)
    (Nat.lt_of_lt_of_le bound (sound.fits index pending))

theorem Gathered.byte_within (gathered : s.Gathered fragments) (sound : s.Sound packet)
    (within : s.offset + 1 < rxFragBufSz) : (s.byte value false other).Gathered fragments := by
  rw [sound.byte_within within]
  refine ⟨?_, gathered.received, gathered.short, gathered.doubles⟩
  change s.arriving ++ [value] = _ ++ bytesAt _ (s.offset + 1)
  rw [bytesAt_stored_value, gathered.arriving, List.append_assoc]

/-- The driver with whole fragments fills a descriptor. -/
theorem Follows.byte_ends (follows : s.Follows driver) (sound : s.Sound packet)
    (room : s.rxProduceIndex + 1 ≠ s.rxConsumeIndex)
    (ends : ¬(s.offset + 1 < rxFragBufSz ∧ last = false)) (heap : Heap) :
    ∃ driver', Emac.step heap driver (.fill (s.completed value last other)) = some driver' ∧
      driver'.filled = driver.filled ++ [s.completed value last other] ∧
      (s.byte value last other).Follows driver' := by
  have room' : (driver.rxProduceIndex + 1) % descLen ≠ driver.rxConsumeIndex := by
    rw [follows.produce, follows.consume, ← val_next]
    exact fun same => room (Fin.ext same)
  have filled : Emac.step heap driver (.fill (s.completed value last other)) = some _ :=
    if_neg room'
  rcases step_doubles filled follows.ringed follows.reassembled nofun with
    ⟨⟨ringed, reassembled⟩, _⟩
  refine ⟨_, filled, rfl, ?_⟩
  have after := @Sound.byte_ends packet s value last other sound ends
  refine ⟨ringed, reassembled, ?_, ?_, ?_, ?_, ?_, ?_, ?_⟩
  · rw [after]
    change (driver.rxProduceIndex + 1) % descLen = (s.rxProduceIndex + 1).val
    rw [follows.produce, val_next]
  · rw [after]
    exact follows.consume
  · rw [after]
    exact follows.inIrq
  · rw [after]
    exact follows.currentFrame
  · rw [after]
    exact follows.currentFrameLen
  · rw [after]
    exact follows.injected
  · intro index pending
    change (driver.rxDesc.set driver.rxProduceIndex _).getD index default = _
    rw [follows.produce, List.getD_eq_getElem?_getD]
    by_cases here : index = s.rxProduceIndex
    · rw [here, List.getElem?_set_self (by rw [follows.ringed.size]; exact Fin.isLt _)]
      rfl
    · have older : s.Pending index := by
        rw [after] at pending
        exact (pending_of_produce rfl room pending).resolve_right here
      rw [List.getElem?_set_ne fun same => here (Fin.ext same.symm), ← List.getD_eq_getElem?_getD,
        follows.held index older, after]
      symm
      refine fragmentAt_congr rfl (Function.update_of_ne here _ _) fun i bound => ?_
      exact sound.stored_of_ne here (Nat.lt_of_lt_of_le bound (sound.fits index older))

/-- A fragment joins its frame. -/
theorem Gathered.byte_ends (gathered : s.Gathered fragments) (sound : s.Sound packet)
    (ends : ¬(s.offset + 1 < rxFragBufSz ∧ last = false))
    (fits : s.Fits (.byte value last other)) :
    (s.byte value last other).Gathered (fragments ++ [s.completed value last other]) := by
  rcases @Sound.completed_eq packet s value last other sound ends with ⟨bytes, marked⟩
  have offset := sound.offset
  have size : s.partialBytes.length = s.offset := length_bytesAt _ _
  have length : s.arriving.length = (joined (framed fragments).2).length + s.offset := by
    rw [gathered.arriving, List.length_append, size]
  have whole : s.arriving ++ [value] =
      joined ((framed fragments).2 ++ [s.completed value last other]) := by
    rw [joined_snoc, bytes, gathered.arriving, List.append_assoc]
  have groups : framed (fragments ++ [s.completed value last other]) =
      addToGroups Fragment.isLast (framed fragments) (s.completed value last other) :=
    groups_snoc _ _ _
  have doubles : (framed fragments).2 ≠ [] →
      (s.completed value last other).bytes.length = (joined (framed fragments).2).length := by
    intro continues
    have full := gathered.short.resolve_left continues
    rw [bytes, List.length_append, size, List.length_singleton, full]
    unfold rxFragBufSz at *
    cases last with
    | true =>
        dsimp only [Fits] at fits
        rw [if_pos rfl] at fits
        unfold rxFragBufSz at fits
        omega
    | false =>
        dsimp only [Fits] at fits
        rw [if_neg Bool.false_ne_true] at fits
        unfold rxFragBufSz at fits
        simp only [and_true] at ends
        omega
  have kept (n : Nat) (fragment : Fragment)
      (found : (fragments ++ [s.completed value last other])[n]? = some fragment) :
      (framed ((fragments ++ [s.completed value last other]).take n)).2 ≠ [] →
      fragment.bytes.length =
        (joined (framed ((fragments ++ [s.completed value last other]).take n)).2).length := by
    rcases Nat.lt_trichotomy n fragments.length with before | here | behind
    · rw [List.getElem?_append_left before] at found
      rw [List.take_append_of_le_length (Nat.le_of_lt before)]
      exact gathered.doubles n fragment found
    · rw [here, List.getElem?_concat_length] at found
      rw [here, List.take_left, ← Option.some.inj found]
      exact doubles
    · rw [List.getElem?_eq_none (by rw [List.length_append, List.length_singleton]; omega)] at found
      cases found
  rw [sound.byte_ends ends]
  cases last with
  | true =>
      rw [addToGroups, if_pos marked] at groups
      refine ⟨?_, ?_, ?_, kept⟩
      · rw [groups]
        rfl
      · rw [groups, List.map_append, ← gathered.received, if_pos rfl, whole]
        rfl
      · rw [groups]
        exact .inl rfl
  | false =>
      rw [addToGroups, if_neg (by rw [marked]; exact Bool.false_ne_true)] at groups
      refine ⟨?_, ?_, ?_, kept⟩
      · rw [groups, ← whole]
        exact (List.append_nil _).symm
      · rw [groups]
        exact gathered.received
      · right
        rw [groups, ← whole, List.length_append, List.length_singleton, length]
        dsimp only [Fits] at fits
        rw [if_neg Bool.false_ne_true] at fits
        simp only [and_true] at ends
        rcases gathered.short with first | full
        · rw [first]
          simp only [joined, List.flatMap_nil, List.length_nil]
          omega
        · omega

end Byte

/-! ## The interrupt -/

section Round

variable {packet : Fin descLen → Nat} {s : Receiver} {driver : Driver} {block : Nat → UInt8}

/-- The block that a round fills, and its length. -/
def gatheredBlock (s : Receiver) (block : Nat → UInt8) : List UInt8 × Nat :=
  gather (fun _ => block) s.statics (s.fragmentAt s.rxConsumeIndex).statusInfo
    (s.fragmentAt s.rxConsumeIndex).bytes

theorem round_last (marked : (s.fragmentAt s.rxConsumeIndex).isLast = true) :
    s.round block = { s with
      rxConsumeIndex := s.rxConsumeIndex + 1
      currentFrame := none
      currentFrameLen := 0
      injected := s.injected ++ [(s.gatheredBlock block).1.take (s.gatheredBlock block).2] } :=
  if_pos marked

theorem round_more (marked : (s.fragmentAt s.rxConsumeIndex).isLast = false) :
    s.round block = { s with
      rxConsumeIndex := s.rxConsumeIndex + 1
      currentFrame := some (s.gatheredBlock block).1
      currentFrameLen := (s.gatheredBlock block).2 } := by
  refine if_neg ?_
  rw [marked]
  exact Bool.false_ne_true

theorem Sound.round (sound : s.Sound packet) (ne : s.rxConsumeIndex ≠ s.rxProduceIndex) :
    (s.round block).Sound packet := by
  cases marked : (s.fragmentAt s.rxConsumeIndex).isLast with
  | true =>
      rw [round_last marked]
      exact ⟨sound.desc, sound.apart, sound.offset,
        fun index pending => sound.fits index (pending_of_consume rfl ne pending)⟩
  | false =>
      rw [round_more marked]
      exact ⟨sound.desc, sound.apart, sound.offset,
        fun index pending => sound.fits index (pending_of_consume rfl ne pending)⟩

theorem Gathered.round {fragments : List Fragment} (gathered : s.Gathered fragments) :
    (s.round block).Gathered fragments := by
  cases marked : (s.fragmentAt s.rxConsumeIndex).isLast with
  | true =>
      rw [round_last marked]
      exact ⟨gathered.arriving, gathered.received, gathered.short, gathered.doubles⟩
  | false =>
      rw [round_more marked]
      exact ⟨gathered.arriving, gathered.received, gathered.short, gathered.doubles⟩

/-- The round is the one with whole fragments, and the block that it is given does not
matter. -/
theorem Follows.round (follows : s.Follows driver) (gathered : s.Gathered driver.filled)
    (inIrq : s.inIrq = true) (ne : s.rxConsumeIndex ≠ s.rxProduceIndex) (heap : Heap) :
    ∃ driver', Emac.step heap driver .round = some driver' ∧ driver'.filled = driver.filled ∧
      (s.round block).Follows driver' := by
  have desc : driver.nextDesc = s.fragmentAt s.rxConsumeIndex := by
    rw [Driver.nextDesc, follows.consume]
    exact follows.held _ (pending_consume ne)
  have goesOn : driver.inIrq = true ∧ driver.rxConsumeIndex ≠ driver.rxProduceIndex := by
    rw [follows.inIrq, follows.consume, follows.produce]
    exact ⟨inIrq, fun same => ne (Fin.ext same)⟩
  have stepped : Emac.step (fun _ => block) driver .round =
      some (gatherRound (fun _ => block) driver) := if_pos goesOn
  have doubles : driver.Doubles .round := fun _ continues fragment next =>
    gathered.doubles _ fragment next continues
  rcases step_doubles stepped follows.ringed follows.reassembled doubles with
    ⟨⟨ringed, reassembled⟩, same⟩
  refine ⟨_, same heap, gatherRound_filled, ?_⟩
  have blocks : gather (fun _ => block) driver driver.nextDesc.statusInfo driver.nextDesc.bytes =
      s.gatheredBlock block := by
    rw [desc]
    unfold gather gatheredBlock gather
    rw [follows.currentFrame, follows.currentFrameLen]
    rfl
  have held (index : Fin descLen)
      (pending : index - (s.rxConsumeIndex + 1) < s.rxProduceIndex - (s.rxConsumeIndex + 1)) :
      driver.rxDesc.getD index default = s.fragmentAt index :=
    follows.held index (pending_of_consume rfl ne pending)
  have consume : (driver.rxConsumeIndex + 1) % descLen = (s.rxConsumeIndex + 1).val := by
    rw [follows.consume, val_next]
  cases marked : (s.fragmentAt s.rxConsumeIndex).isLast with
  | true =>
      have after : gatherRound (fun _ => block) driver = { driver with
          rxConsumeIndex := (driver.rxConsumeIndex + 1) % descLen
          consumed := driver.consumed + 1
          currentFrame := none
          currentFrameLen := 0
          injected := driver.injected ++
            [(s.gatheredBlock block).1.take (s.gatheredBlock block).2] } := by
        rw [← blocks]
        exact if_pos (by rw [← desc] at marked; exact marked)
      rw [after] at ringed reassembled ⊢
      rw [round_last marked]
      exact ⟨ringed, reassembled, follows.produce, consume, follows.inIrq, rfl, rfl,
        by rw [follows.injected], fun index pending => held index pending⟩
  | false =>
      have after : gatherRound (fun _ => block) driver = { driver with
          rxConsumeIndex := (driver.rxConsumeIndex + 1) % descLen
          consumed := driver.consumed + 1
          currentFrame := some (s.gatheredBlock block).1
          currentFrameLen := (s.gatheredBlock block).2 } := by
        rw [← blocks]
        exact if_neg (by rw [← desc] at marked; exact ne_true_of_eq_false marked)
      rw [after] at ringed reassembled ⊢
      rw [round_more marked]
      exact ⟨ringed, reassembled, follows.produce, consume, follows.inIrq, rfl, rfl,
        follows.injected, fun index pending => held index pending⟩

end Round

end Receiver

end Lpc17xx.Emac
