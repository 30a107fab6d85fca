import Lpc17xx.Emac.Core

/-!
# Reassembly of frames

A fragment that continues a frame is copied to the offset of its own length, not
to the end of what has been gathered.  The two are the same place exactly when
the fragment is as long as everything before it in its frame; otherwise the
block keeps bytes that only the heap knows.
-/

namespace Lpc17xx.Emac

open Lpc17xx.Cbuf
open Lpc17xx.Memory
open Lpc17xx.Ring
open Lpc17xx.Stream
open Lpc17xx.Transition

namespace Driver

/-- The fragments gathered so far: complete frames, and the one begun. -/
def gathered (s : Driver) : List (List Fragment) × List Fragment :=
  groups Fragment.isLast (s.filled.take s.consumed)

/-- The frames injected are the complete groups of fragments, in order, and an
incomplete group is held with its length. -/
structure Reassembled (s : Driver) : Prop where
  injected : s.injected = s.gathered.1.map joined
  current : s.currentFrame = if s.gathered.2 = [] then none else some (joined s.gathered.2)
  currentLen : s.currentFrameLen = (joined s.gathered.2).length

/-- The descriptors between the indices hold the fragments that have not been
gathered. -/
structure Ringed (s : Driver) : Prop where
  size : s.rxDesc.length = descLen
  consumeLt : s.rxConsumeIndex < descLen
  pending : s.consumed ≤ s.filled.length
  free : s.filled.length - s.consumed < descLen
  produce : s.rxProduceIndex = (s.rxConsumeIndex + (s.filled.length - s.consumed)) % descLen
  held : window s.rxDesc s.rxConsumeIndex (s.filled.length - s.consumed) =
    s.filled.drop s.consumed

/-- The next fragment, when it continues a frame, is as long as all the fragments
of the frame before it. -/
def Doubles (s : Driver) (event : EmacEvent) : Prop :=
  event = .round → s.gathered.2 ≠ [] →
    ∀ fragment, s.filled[s.consumed]? = some fragment →
      fragment.bytes.length = (joined s.gathered.2).length

end Driver

section Ring

variable {s : Driver}

theorem ringed_start (stale : Fragment) : (start stale).Ringed where
  size := List.length_replicate
  consumeLt := Nat.succ_pos 11
  pending := Nat.le_refl _
  free := Nat.succ_pos 11
  produce := rfl
  held := rfl

/-- The indices differ exactly when something is held. -/
theorem Driver.Ringed.ne_iff (ringed : s.Ringed) :
    s.rxConsumeIndex ≠ s.rxProduceIndex ↔ s.consumed < s.filled.length := by
  have free := ringed.free
  have consumeLt := ringed.consumeLt
  have pending := ringed.pending
  rw [ringed.produce]
  unfold descLen at *
  omega

theorem Driver.Ringed.fill (ringed : s.Ringed) (fragment : Fragment)
    (room : (s.rxProduceIndex + 1) % descLen ≠ s.rxConsumeIndex) :
    Driver.Ringed { s with
      rxDesc := s.rxDesc.set s.rxProduceIndex fragment
      rxProduceIndex := (s.rxProduceIndex + 1) % descLen
      filled := s.filled ++ [fragment] } := by
  have free := ringed.free
  have consumeLt := ringed.consumeLt
  have pending := ringed.pending
  have count : (s.filled ++ [fragment]).length - s.consumed = s.filled.length - s.consumed + 1 := by
    rw [List.length_append, List.length_singleton]
    omega
  have room' : s.filled.length - s.consumed + 1 < descLen := by
    rw [ringed.produce] at room
    unfold descLen at *
    omega
  constructor
  · rw [List.length_set, ringed.size]
  · exact consumeLt
  · change s.consumed ≤ (s.filled ++ [fragment]).length
    omega
  · change (s.filled ++ [fragment]).length - s.consumed < descLen
    rw [count]
    exact room'
  · change (s.rxProduceIndex + 1) % descLen =
      (s.rxConsumeIndex + ((s.filled ++ [fragment]).length - s.consumed)) % descLen
    rw [count, ringed.produce]
    unfold descLen
    omega
  · change window (s.rxDesc.set s.rxProduceIndex fragment) s.rxConsumeIndex
      ((s.filled ++ [fragment]).length - s.consumed) = (s.filled ++ [fragment]).drop s.consumed
    rw [count, ringed.produce, ← ringed.size, window_set_snoc _ _ _ (by rw [ringed.size]; omega),
      ringed.held, List.drop_append_of_le_length pending]

/-- The loop reads the oldest fragment that has not been gathered. -/
theorem Driver.Ringed.next (ringed : s.Ringed) (some_ : s.consumed < s.filled.length) :
    s.filled[s.consumed]? = some (s.rxDesc.getD s.rxConsumeIndex default) := by
  have first := congrArg (fun fragments => fragments[0]?) ringed.held
  have positive : 0 < s.filled.length - s.consumed := by omega
  have slot : s.rxConsumeIndex % s.rxDesc.length = s.rxConsumeIndex :=
    Nat.mod_eq_of_lt (by rw [ringed.size]; exact ringed.consumeLt)
  simp only [List.getElem?_drop, Nat.add_zero] at first
  rw [← first]
  simp [window, positive, slot]

end Ring

section Gather

variable {s : Driver} (heap : Heap)

theorem joined_snoc (fragments : List Fragment) (fragment : Fragment) :
    joined (fragments ++ [fragment]) = joined fragments ++ fragment.bytes := by
  simp [joined]

/-- The block is as long as `current_frame_len` says. -/
theorem length_gather (statusInfo : UInt32) (frag : List UInt8) :
    (gather heap s statusInfo frag).1.length = (gather heap s statusInfo frag).2 := by
  unfold gather
  cases s.currentFrame with
  | none => simp [length_copyAt, getMem, bytesAt]
  | some frame => simp [length_copyAt, getMem, bytesAt]

theorem gather_snd (reassembled : s.Reassembled) (fragment : Fragment) :
    (gather heap s fragment.statusInfo fragment.bytes).2 =
      (joined (s.gathered.2 ++ [fragment])).length := by
  rw [joined_snoc, List.length_append, fragment.counted, gather, reassembled.current]
  by_cases first : s.gathered.2 = []
  · simp [first, joined]
  · rw [if_neg first, reassembled.currentLen]

/-- A fragment that doubles its frame is put where it belongs, and the heap has
no say. -/
theorem gather_fst (reassembled : s.Reassembled) {fragment : Fragment}
    (doubles : s.gathered.2 ≠ [] → fragment.bytes.length = (joined s.gathered.2).length) :
    (gather heap s fragment.statusInfo fragment.bytes).1 =
      joined (s.gathered.2 ++ [fragment]) := by
  have whole : fragment.bytes.take (fragLen fragment.statusInfo) = fragment.bytes := by
    rw [← fragment.counted, List.take_length]
  rw [joined_snoc, gather, reassembled.current]
  by_cases first : s.gathered.2 = []
  · have copied := copyAt_zero (getMem heap s (fragLen fragment.statusInfo)) fragment.bytes []
      (by simp [getMem, bytesAt, fragment.counted])
    simpa [first, joined, whole] using copied
  · have length := doubles first
    have frameLen := reassembled.currentLen
    let block := getMem heap s (s.currentFrameLen + fragLen fragment.statusInfo)
    have blockLen : block.length = s.currentFrameLen + fragLen fragment.statusInfo := by
      simp [block, getMem, bytesAt]
    have taken : (joined s.gathered.2).take s.currentFrameLen = joined s.gathered.2 := by
      rw [frameLen, List.take_length]
    have head : copyAt block 0 (joined s.gathered.2) =
        joined s.gathered.2 ++ block.drop s.currentFrameLen := by
      have split := List.take_append_drop s.currentFrameLen block
      rw [← split, copyAt_zero, split]
      rw [List.length_take, blockLen, ← frameLen]
      omega
    rw [if_neg first]
    simp only [taken, whole]
    rw [head, ← fragment.counted, length]
    apply copyAt_rest
    rw [List.length_drop, blockLen, frameLen, fragment.counted]
    omega

end Gather

section Spoiled

variable {s : Driver}

/-- The descriptor that the loop reads next. -/
def Driver.nextDesc (s : Driver) : Fragment :=
  s.rxDesc.getD s.rxConsumeIndex default

/-- A heap whose blocks differ at every place from what belongs there. -/
def spoiledHeap : Heap := fun s i =>
  (s.currentFrame.getD [] ++ s.nextDesc.bytes).getD i 0 + 1

theorem add_one_ne (byte : UInt8) : byte + 1 ≠ byte := by
  intro same
  have carried := congrArg UInt8.toNat same
  rw [UInt8.toNat_add] at carried
  have bound := byte.toNat_lt
  simp at carried
  omega

/-- A fragment of another length leaves a byte of the block as the heap had
it. -/
theorem gather_spoiled (reassembled : s.Reassembled) (continues : s.gathered.2 ≠ [])
    (unequal : s.nextDesc.bytes.length ≠ (joined s.gathered.2).length) :
    (gather spoiledHeap s s.nextDesc.statusInfo s.nextDesc.bytes).1 ≠
      joined (s.gathered.2 ++ [s.nextDesc]) := by
  let frame := joined s.gathered.2
  let bytes := s.nextDesc.bytes
  let block := getMem spoiledHeap s (frame.length + bytes.length)
  have size : block.length = frame.length + bytes.length := by simp [block, getMem, bytesAt]
  have positive : 0 < bytes.length := by
    rw [s.nextDesc.counted]
    exact Nat.succ_pos _
  have current := reassembled.current
  rw [if_neg continues] at current
  have gathered : (gather spoiledHeap s s.nextDesc.statusInfo bytes).1 =
      copyAt (copyAt block 0 frame) bytes.length bytes := by
    have whole : bytes.take bytes.length = bytes := List.take_length
    simp only [gather, current, reassembled.currentLen, ← s.nextDesc.counted, List.take_length]
    rw [whole]
  rcases exists_kept_of_length_ne size positive unequal with ⟨kept, inside, untouched⟩
  intro same
  rw [gathered, joined_snoc] at same
  rw [same] at untouched
  have inside' : kept < (frame ++ bytes).length := by
    rw [List.length_append, ← size]
    exact inside
  have spoiled : block[kept]? = some ((frame ++ bytes).getD kept 0 + 1) := by
    rw [size] at inside
    simp [block, getMem, bytesAt, inside, spoiledHeap, current, frame, bytes]
  rw [spoiled, List.getD_eq_getElem?_getD, List.getElem?_eq_getElem inside', Option.getD_some]
    at untouched
  exact add_one_ne _ (Option.some.inj untouched).symm

end Spoiled

section Round

variable {s : Driver} {heap : Heap}

/-- The oldest fragment not gathered is the one in the next descriptor. -/
theorem Driver.Ringed.take_succ (ringed : s.Ringed) (holds : s.consumed < s.filled.length) :
    s.filled.take (s.consumed + 1) = s.filled.take s.consumed ++ [s.nextDesc] := by
  rw [List.take_add_one, ringed.next holds]
  rfl

theorem gatherRound_filled : (gatherRound heap s).filled = s.filled := by
  rw [gatherRound, apply_ite Driver.filled, ite_self]

theorem gatherRound_consumed : (gatherRound heap s).consumed = s.consumed + 1 := by
  rw [gatherRound, apply_ite Driver.consumed, ite_self]

theorem gatherRound_rxConsumeIndex :
    (gatherRound heap s).rxConsumeIndex = (s.rxConsumeIndex + 1) % descLen := by
  rw [gatherRound, apply_ite Driver.rxConsumeIndex, ite_self]

theorem gatherRound_rxProduceIndex : (gatherRound heap s).rxProduceIndex = s.rxProduceIndex := by
  rw [gatherRound, apply_ite Driver.rxProduceIndex, ite_self]

theorem gatherRound_rxDesc : (gatherRound heap s).rxDesc = s.rxDesc := by
  rw [gatherRound, apply_ite Driver.rxDesc, ite_self]

theorem gatherRound_gathered (ringed : s.Ringed) (holds : s.consumed < s.filled.length) :
    (gatherRound heap s).gathered = addToGroups Fragment.isLast s.gathered s.nextDesc := by
  rw [Driver.gathered, gatherRound_filled, gatherRound_consumed, ringed.take_succ holds,
    groups_snoc]
  rfl

theorem Driver.Ringed.round (ringed : s.Ringed) (holds : s.consumed < s.filled.length) :
    (gatherRound heap s).Ringed := by
  have free := ringed.free
  have consumeLt := ringed.consumeLt
  have produce := ringed.produce
  constructor
  · rw [gatherRound_rxDesc, ringed.size]
  · rw [gatherRound_rxConsumeIndex]
    exact Nat.mod_lt _ (Nat.succ_pos 11)
  · rw [gatherRound_filled, gatherRound_consumed]
    exact holds
  · rw [gatherRound_filled, gatherRound_consumed]
    omega
  · rw [gatherRound_filled, gatherRound_consumed, gatherRound_rxConsumeIndex,
      gatherRound_rxProduceIndex, produce]
    unfold descLen
    omega
  · have later := congrArg (List.drop 1) ringed.held
    rw [drop_window _ _ (by omega), List.drop_drop, ringed.size] at later
    rw [gatherRound_filled, gatherRound_consumed, gatherRound_rxConsumeIndex, gatherRound_rxDesc,
      ← Nat.sub_sub]
    exact later

/-- Whether the marker completes the frame or not, the round is right exactly
when the block is. -/
theorem reassembled_gatherRound_iff (ringed : s.Ringed) (reassembled : s.Reassembled)
    (holds : s.consumed < s.filled.length) :
    (gatherRound heap s).Reassembled ↔
      (gather heap s s.nextDesc.statusInfo s.nextDesc.bytes).1 =
        joined (s.gathered.2 ++ [s.nextDesc]) := by
  have gathered : (gatherRound heap s).gathered = _ := gatherRound_gathered ringed holds
  have frameLen := gather_snd heap reassembled s.nextDesc
  have length := length_gather (s := s) heap s.nextDesc.statusInfo s.nextDesc.bytes
  have whole : (gather heap s s.nextDesc.statusInfo s.nextDesc.bytes).1.take
      (gather heap s s.nextDesc.statusInfo s.nextDesc.bytes).2 =
      (gather heap s s.nextDesc.statusInfo s.nextDesc.bytes).1 := by
    rw [← length, List.take_length]
  cases marked : s.nextDesc.isLast with
  | true =>
      have round : gatherRound heap s = { s with
          rxConsumeIndex := (s.rxConsumeIndex + 1) % descLen
          consumed := s.consumed + 1
          currentFrame := none
          currentFrameLen := 0
          injected := s.injected ++
            [(gather heap s s.nextDesc.statusInfo s.nextDesc.bytes).1] } := by
        rw [← whole]
        exact if_pos marked
      rw [addToGroups, if_pos marked] at gathered
      constructor
      · intro after
        have injected := after.injected
        rw [gathered, round, List.map_append, ← reassembled.injected] at injected
        exact List.singleton_inj.mp (List.append_cancel_left injected)
      · intro right
        constructor
        · rw [gathered, round, List.map_append, ← reassembled.injected, right]
          rfl
        · rw [gathered, round]
          rfl
        · rw [gathered, round]
          rfl
  | false =>
      have unmarked : ¬ s.nextDesc.isLast = true := by rw [marked]; exact Bool.false_ne_true
      have round : gatherRound heap s = { s with
          rxConsumeIndex := (s.rxConsumeIndex + 1) % descLen
          consumed := s.consumed + 1
          currentFrame := some (gather heap s s.nextDesc.statusInfo s.nextDesc.bytes).1
          currentFrameLen := (gather heap s s.nextDesc.statusInfo s.nextDesc.bytes).2 } :=
        if_neg unmarked
      rw [addToGroups, if_neg unmarked] at gathered
      have begun : s.gathered.2 ++ [s.nextDesc] ≠ [] := by simp
      constructor
      · intro after
        have current := after.current
        rw [gathered, round, if_neg begun] at current
        exact Option.some.inj current
      · intro right
        constructor
        · rw [gathered, round, ← reassembled.injected]
        · rw [gathered, round, if_neg begun, ← right]
        · rw [gathered, round, ← frameLen]

end Round

section Run

variable {s target : Driver} {event : EmacEvent}

theorem reassembled_start (stale : Fragment) : (start stale).Reassembled where
  injected := rfl
  current := rfl
  currentLen := rfl

/-- Only a round gathers anything. -/
theorem step_cases {heap : Heap} (stepped : step heap s event = some target) (ringed : s.Ringed) :
    event = .round ∧ s.consumed < s.filled.length ∧ target = gatherRound heap s ∨
      event ≠ .round ∧ target.Ringed ∧ (s.Reassembled → target.Reassembled) ∧
        ∀ heap', step heap' s event = some target := by
  cases event with
  | fill fragment =>
      by_cases full : (s.rxProduceIndex + 1) % descLen = s.rxConsumeIndex
      · simp [step, full] at stepped
      · simp only [step, if_neg full, Option.some.injEq] at stepped
        subst stepped
        have gathered : Driver.gathered { s with
            rxDesc := s.rxDesc.set s.rxProduceIndex fragment
            rxProduceIndex := (s.rxProduceIndex + 1) % descLen
            filled := s.filled ++ [fragment] } = s.gathered := by
          rw [Driver.gathered, List.take_append_of_le_length ringed.pending, Driver.gathered]
        refine .inr ⟨nofun, ringed.fill fragment full, ?_, fun _ => if_neg full⟩
        intro reassembled
        constructor
        · rw [gathered, reassembled.injected]
        · rw [gathered, reassembled.current]
        · rw [gathered, reassembled.currentLen]
  | enter =>
      by_cases inIrq : s.inIrq
      · simp [step, inIrq] at stepped
      · simp only [step, inIrq, Bool.false_eq_true, if_false, Option.some.injEq] at stepped
        subst stepped
        refine .inr ⟨nofun, ⟨ringed.size, ringed.consumeLt, ringed.pending, ringed.free,
          ringed.produce, ringed.held⟩, ?_, fun _ => if_neg inIrq⟩
        exact fun reassembled =>
          ⟨reassembled.injected, reassembled.current, reassembled.currentLen⟩
  | round =>
      by_cases goesOn : s.inIrq ∧ s.rxConsumeIndex ≠ s.rxProduceIndex
      · simp only [step, if_pos goesOn, Option.some.injEq] at stepped
        exact .inl ⟨rfl, ringed.ne_iff.mp goesOn.2, stepped.symm⟩
      · simp [step, goesOn] at stepped
  | leave =>
      by_cases done : s.inIrq ∧ s.rxConsumeIndex = s.rxProduceIndex
      · simp only [step, if_pos done, Option.some.injEq] at stepped
        subst stepped
        refine .inr ⟨nofun, ⟨ringed.size, ringed.consumeLt, ringed.pending, ringed.free,
          ringed.produce, ringed.held⟩, ?_, fun _ => if_pos done⟩
        exact fun reassembled =>
          ⟨reassembled.injected, reassembled.current, reassembled.currentLen⟩
      · simp [step, done] at stepped

/-- What a guarded step keeps, and that no heap changes its outcome. -/
theorem step_doubles {heap : Heap} (stepped : step heap s event = some target) (ringed : s.Ringed)
    (reassembled : s.Reassembled) (doubles : s.Doubles event) :
    (target.Ringed ∧ target.Reassembled) ∧ ∀ heap', step heap' s event = some target := by
  rcases step_cases stepped ringed with ⟨rfl, holds, rfl⟩ | ⟨_, ringed', kept, same⟩
  · have long (continues : s.gathered.2 ≠ []) :
        s.nextDesc.bytes.length = (joined s.gathered.2).length :=
      doubles rfl continues _ (ringed.next holds)
    have right (heap : Heap) := gather_fst heap reassembled long
    refine ⟨⟨ringed.round holds, ?_⟩, ?_⟩
    · exact (reassembled_gatherRound_iff ringed reassembled holds).mpr (right heap)
    · intro heap'
      have block : gather heap' s s.nextDesc.statusInfo s.nextDesc.bytes =
          gather heap s s.nextDesc.statusInfo s.nextDesc.bytes := by
        apply Prod.ext
        · rw [right heap', right heap]
        · rw [gather_snd heap' reassembled, gather_snd heap reassembled]
      have round : gatherRound heap' s = gatherRound heap s := by
        unfold Driver.nextDesc at block
        simp only [gatherRound, block]
      by_cases goesOn : s.inIrq ∧ s.rxConsumeIndex ≠ s.rxProduceIndex
      · simp only [step, if_pos goesOn, round]
      · simp [step, goesOn] at stepped
  · exact ⟨⟨ringed', kept reassembled⟩, same⟩

/-- A run that is right for every heap is guarded, by induction on its events:
the spoiled heap admits no unguarded round. -/
theorem guarded_of_reassembled {events : List EmacEvent} (ringed : s.Ringed)
    (reassembled : s.Reassembled)
    (right : ∀ heap, Along (step heap) (fun _ _ after => after.Reassembled) s events)
    (heap : Heap) : Guarded (step heap) Driver.Doubles s events := by
  induction events generalizing s with
  | nil => trivial
  | cons event events ih =>
      intro target stepped
      have doubles : s.Doubles event := by
        rintro rfl continues fragment next
        by_contra unequal
        rcases step_cases stepped ringed with ⟨_, holds, _⟩ | ⟨other, _⟩
        · have goesOn : s.inIrq ∧ s.rxConsumeIndex ≠ s.rxProduceIndex := by
            by_contra idle
            simp [step, idle] at stepped
          have read : fragment = s.nextDesc := Option.some.inj (next.symm.trans (ringed.next holds))
          have after : (gatherRound spoiledHeap s).Reassembled :=
            (right spoiledHeap _ (if_pos goesOn)).1
          rw [reassembled_gatherRound_iff ringed reassembled holds] at after
          exact gather_spoiled reassembled continues (read ▸ unequal) after
        · exact other rfl
      rcases step_doubles stepped ringed reassembled doubles with ⟨⟨ringed', reassembled'⟩, same⟩
      exact ⟨doubles, ih ringed' reassembled' fun heap' => (right heap' target (same heap')).2⟩

/-- For every sequence of fragments, split over interrupts in any way: the frames
are reassembled whatever the heap holds exactly when every fragment that
continues a frame is as long as all of the frame before it. -/
theorem irqEnet_reassembles_iff (stale : Fragment) (events : List EmacEvent) :
    (∀ heap, Along (step heap) (fun _ _ after => after.Reassembled) (start stale) events) ↔
      ∀ heap, Guarded (step heap) Driver.Doubles (start stale) events := by
  have ringed := ringed_start stale
  have reassembled := reassembled_start stale
  constructor
  · intro right heap
    exact guarded_of_reassembled ringed reassembled right heap
  · intro guarded heap
    have kept (s : Driver) (event : EmacEvent) (target : Driver)
        (inv : s.Ringed ∧ s.Reassembled) (doubles : s.Doubles event)
        (stepped : step heap s event = some target) : target.Ringed ∧ target.Reassembled :=
      (step_doubles stepped inv.1 inv.2 doubles).1
    exact along_of_guarded kept (fun s event target inv doubles stepped =>
      (kept s event target inv doubles stepped).2) ⟨ringed, reassembled⟩ (guarded heap)

end Run

/-- Two bytes, without the marker. -/
def twoBytes : Fragment :=
  ⟨[1, 2], 1, rfl⟩

/-- One byte that completes the frame. -/
def lastByte : Fragment :=
  ⟨[3], 0x40000000, rfl⟩

/-- A frame of two fragments, the second shorter than the first: the third byte
goes over the second. -/
theorem irqEnet_not_reassembles_shortTail :
    ¬ ∀ heap, Along (step heap) (fun _ _ after => after.Reassembled) (start default)
      [.fill twoBytes, .fill lastByte, .enter, .round, .round] := by
  intro right
  rcases right (fun _ _ => 0) _ rfl with ⟨_, filled⟩
  rcases filled _ rfl with ⟨_, filledAgain⟩
  rcases filledAgain _ rfl with ⟨_, entered⟩
  rcases entered _ rfl with ⟨_, first⟩
  rcases first _ rfl with ⟨second, _⟩
  exact absurd second.injected (by decide)

end Lpc17xx.Emac
