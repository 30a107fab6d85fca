import Lpc17xx.Emac.Reception
import Lpc17xx.Transition.Refinement

/-!
# Runs of the receiver

However the bytes of the frames, the interrupt and the rest of the program follow one
another, the receive ring in memory refines the ring of fragments.
-/

namespace Lpc17xx.Emac

open Lpc17xx.Cbuf
open Lpc17xx.Memory
open Lpc17xx.Transition

namespace Receiver

section Others

variable {packet : Fin descLen → Nat} {s : Receiver} {driver : Driver} {memory : Bytes}

/-- Memory is left alone in the fragment buffers. -/
def KeepsBuffers (s : Receiver) (memory : Bytes) : Prop :=
  ∀ index, ∀ i < rxFragBufSz,
    memory ((s.rxDesc index).packet + i) = s.memory ((s.rxDesc index).packet + i)

theorem keepsBuffers_update {address : Nat} (outside : Outside s.buffers address) (value : UInt8) :
    s.KeepsBuffers (Function.update s.memory address value) := by
  intro index i bound
  refine Function.update_of_ne ?_ _ _
  have buffer := outside _ (List.mem_map_of_mem (List.mem_finRange index))
  rcases buffer with before | behind
  · omega
  · exact fun here => absurd behind (by simp only; omega)

theorem Follows.frame (follows : s.Follows driver) (sound : s.Sound packet)
    (keeps : s.KeepsBuffers memory) : ({ s with memory } : Receiver).Follows driver := by
  refine ⟨follows.ringed, follows.reassembled, follows.produce, follows.consume, follows.inIrq,
    follows.currentFrame, follows.currentFrameLen, follows.injected, fun index pending => ?_⟩
  refine (follows.held index pending).trans ?_
  symm
  exact fragmentAt_congr rfl rfl fun i bound =>
    keeps index i (Nat.lt_of_lt_of_le bound (sound.fits index pending))

theorem Gathered.frame {fragments : List Fragment} (gathered : s.Gathered fragments)
    (sound : s.Sound packet) (keeps : s.KeepsBuffers memory) :
    ({ s with memory } : Receiver).Gathered fragments := by
  refine ⟨gathered.arriving.trans ?_, gathered.received, gathered.short, gathered.doubles⟩
  congr 1
  exact (bytesAt_congr fun i bound => keeps _ i (Nat.lt_trans bound sound.offset)).symm

/-- Entering the interrupt and leaving it. -/
theorem Follows.switch (follows : s.Follows driver) {event : EmacEvent} {heap : Heap}
    {inIrq : Bool} (stepped : Emac.step heap driver event = some { driver with inIrq })
    (other : event ≠ .round) :
    ({ s with inIrq } : Receiver).Follows { driver with inIrq } := by
  rcases step_doubles stepped follows.ringed follows.reassembled
    (fun round => absurd round other) with ⟨⟨ringed, reassembled⟩, _⟩
  exact ⟨ringed, reassembled, follows.produce, follows.consume, rfl, follows.currentFrame,
    follows.currentFrameLen, follows.injected, follows.held⟩

end Others

section Runs

variable {packet : Fin descLen → Nat} {s target : Receiver} {driver : Driver}
  {event : ReceiveEvent}

/-- What holds between any two events, with the driver that is followed. -/
structure Related (packet : Fin descLen → Nat) (s : Receiver) (driver : Driver) : Prop where
  sound : s.Sound packet
  follows : s.Follows driver
  gathered : s.Gathered driver.filled

/-- What the rest of the program does to memory outside the fragment buffers is not seen. -/
theorem Related.frame (related : Related packet s driver) {memory : Bytes}
    (keeps : s.KeepsBuffers memory) : Related packet { s with memory } driver where
  sound := ⟨related.sound.desc, related.sound.apart, related.sound.offset, related.sound.fits⟩
  follows := related.follows.frame related.sound keeps
  gathered := related.gathered.frame related.sound keeps

/-- What the driver does when this happens to the receiver. -/
def Matching : ReceiveEvent → List EmacEvent → Prop
  | .byte _ _ _, parts => parts = [] ∨ ∃ fragment, parts = [.fill fragment]
  | .enter, parts => parts = [.enter]
  | .round _, parts => parts = [.round]
  | .leave, parts => parts = [.leave]
  | .write _ _, parts => parts = []

/-- The receive ring refines the ring of fragments: the byte that completes a fragment
fills a descriptor, and other bytes and other memory are not seen. -/
theorem simulation (packet : Fin descLen → Nat) (heap : Heap) :
    Simulation step (Emac.step heap) Fits (Related packet) Matching := by
  refine ⟨fun s event target driver ⟨sound, follows, gathered⟩ fits stepped => ?_⟩
  cases event with
  | byte value last other =>
      obtain ⟨room, ⟨⟩⟩ := Option.ite_none_left_eq_some.mp stepped
      have sound' := @Sound.byte packet s value last other sound room
      by_cases within : s.offset + 1 < rxFragBufSz ∧ last = false
      · obtain ⟨within, rfl⟩ := within
        exact ⟨[], driver, .inl rfl, rfl, sound', follows.byte_within sound within,
          gathered.byte_within sound within⟩
      · rcases follows.byte_ends sound room within heap with ⟨driver', filled, fragments, after⟩
        refine ⟨[.fill (s.completed value last other)], driver', .inr ⟨_, rfl⟩, ?_, sound', after,
          ?_⟩
        · rw [run_cons, filled]
          rfl
        · rw [fragments]
          exact gathered.byte_ends sound within fits
  | enter =>
      obtain ⟨outside, ⟨⟩⟩ := Option.ite_none_left_eq_some.mp stepped
      have entered : Emac.step heap driver .enter = some { driver with inIrq := true } :=
        if_neg (by rw [follows.inIrq]; exact outside)
      refine ⟨[.enter], _, rfl, ?_, ⟨sound.desc, sound.apart, sound.offset, sound.fits⟩,
        follows.switch entered nofun,
        ⟨gathered.arriving, gathered.received, gathered.short, gathered.doubles⟩⟩
      rw [run_cons, entered]
      rfl
  | round block =>
      obtain ⟨⟨inIrq, ne⟩, ⟨⟩⟩ := Option.ite_none_right_eq_some.mp stepped
      rcases follows.round gathered inIrq ne heap with ⟨driver', round, fragments, after⟩
      refine ⟨[.round], driver', rfl, ?_, sound.round ne, after, ?_⟩
      · rw [run_cons, round]
        rfl
      · rw [fragments]
        exact gathered.round
  | leave =>
      obtain ⟨⟨inIrq, empty⟩, ⟨⟩⟩ := Option.ite_none_right_eq_some.mp stepped
      have left : Emac.step heap driver .leave = some { driver with inIrq := false } :=
        if_pos (by rw [follows.inIrq, follows.consume, follows.produce, empty]; exact ⟨inIrq, rfl⟩)
      refine ⟨[.leave], _, rfl, ?_, ⟨sound.desc, sound.apart, sound.offset, sound.fits⟩,
        follows.switch left nofun,
        ⟨gathered.arriving, gathered.received, gathered.short, gathered.doubles⟩⟩
      rw [run_cons, left]
      rfl
  | write address value =>
      obtain ⟨outside, ⟨⟩⟩ := Option.ite_none_right_eq_some.mp stepped
      exact ⟨[], driver, rfl, rfl,
        Related.frame ⟨sound, follows, gathered⟩ (keepsBuffers_update outside value)⟩

theorem related_start (memory : Bytes) (rxStatus : Fin descLen → UInt32)
    (apart : ∀ index index', index ≠ index' →
      Apart (packet index, rxFragBufSz) (packet index', rxFragBufSz)) :
    Related packet (start memory packet rxStatus) (Emac.start default) := by
  have none (index : Fin descLen) : ¬(start memory packet rxStatus).Pending index :=
    Nat.not_lt_zero _
  refine ⟨⟨fun _ => rfl, apart, Nat.succ_pos 126, fun index pending => absurd pending (none index)⟩,
    ⟨ringed_start default, reassembled_start default, rfl, rfl, rfl, rfl, rfl, rfl,
      fun index pending => absurd pending (none index)⟩, rfl, rfl, .inl rfl, nofun⟩

/-- The controller stores to the fragment buffers only. -/
def StoresInBuffer (s : Receiver) (event : ReceiveEvent) (_ : Receiver) : Prop :=
  match event with
  | .byte _ _ _ => ∃ buffer ∈ s.buffers,
      buffer.1 ≤ s.storeAddress ∧ s.storeAddress < buffer.1 + buffer.2
  | _ => True

theorem Sound.storesInBuffer (sound : s.Sound packet) : s.StoresInBuffer event target := by
  cases event with
  | byte value last other =>
      refine ⟨((s.rxDesc s.rxProduceIndex).packet, rxFragBufSz),
        List.mem_map_of_mem (List.mem_finRange _), Nat.le_add_right _ _, ?_⟩
      exact Nat.add_lt_add_left sound.offset _
  | _ => trivial

/-- What has been injected has been received, in order, and when the ring is empty that is
all of it. -/
theorem Related.injected_prefix (related : Related packet s driver) :
    s.injected <+: s.received ∧
      (s.rxConsumeIndex = s.rxProduceIndex → s.injected = s.received) := by
  have injected := related.follows.reassembled.injected
  rw [related.follows.injected, Driver.gathered] at injected
  rw [injected, related.gathered.received]
  constructor
  · have complete := Stream.groups_fst_prefix Fragment.isLast (driver.filled.take driver.consumed)
      (driver.filled.drop driver.consumed)
    rw [List.take_append_drop] at complete
    exact complete.map joined
  · intro empty
    have all : driver.filled.length ≤ driver.consumed := by
      by_contra more
      have differ := related.follows.ringed.ne_iff.mpr (Nat.lt_of_not_le more)
      rw [related.follows.consume, related.follows.produce, empty] at differ
      exact differ rfl
    rw [List.take_of_length_le all]

/-- In every run whose frames fit one buffer or fill two, the controller stores to the
buffers only, and the frames are handed to `packet_inject` as they came: whatever the heap
holds in the blocks that `irq_enet` gets, and however it is interrupted. -/
theorem receives_all {memory : Bytes} {rxStatus : Fin descLen → UInt32}
    {events : List ReceiveEvent}
    (apart : ∀ index index', index ≠ index' →
      Apart (packet index, rxFragBufSz) (packet index', rxFragBufSz))
    (fits : Guarded step Fits (start memory packet rxStatus) events)
    (executed : run step (start memory packet rxStatus) events = some s) :
    Along step StoresInBuffer (start memory packet rxStatus) events ∧
      s.injected <+: s.received ∧
      (s.rxConsumeIndex = s.rxProduceIndex → s.injected = s.received) := by
  have initial := related_start memory rxStatus apart
  constructor
  · refine @along_of_guarded _ _ step (fun s => ∃ driver, Related packet s driver) Fits
      StoresInBuffer ?_ (fun _ _ _ ⟨_, related⟩ _ _ => related.sound.storesInBuffer) _ _
      ⟨_, initial⟩ fits
    rintro state event target ⟨driver, related⟩ admitted stepped
    rcases (simulation packet fun _ _ => 0).matched _ _ _ _ related admitted stepped with
      ⟨_, driver', _, _, related'⟩
    exact ⟨driver', related'⟩
  · rcases (simulation packet fun _ _ => 0).exists_run initial fits executed with
      ⟨_, driver, _, _, related⟩
    exact related.injected_prefix

/-- A frame of two bytes, and one that fills two fragments, the second while the interrupt
handles the first. -/
def receivesTwo : List ReceiveEvent :=
  [.byte 1 false 0, .write 7 5, .enter, .byte 2 true 0, .round fun _ => 9, .leave] ++
    List.replicate rxFragBufSz (.byte 3 false 0) ++ [.enter, .round fun _ => 8] ++
      List.replicate (rxFragBufSz - 1) (.byte 4 false 0) ++
        [.byte 5 true 0, .round fun _ => 6, .leave]

/-- The receiver with twelve buffers in a row. -/
def twelveBuffers : Receiver :=
  start (fun _ => 0) (fun index => 128 * (index.val + 1)) fun _ => 0

theorem isSome_receivesTwo : (run step twelveBuffers receivesTwo).isSome = true := by
  decide +kernel

theorem receives_all_example :
    ∃ s, run step twelveBuffers receivesTwo = some s ∧
      Along step StoresInBuffer twelveBuffers receivesTwo ∧
      s.injected = s.received ∧ s.received.map List.length = [2, 254] := by
  have executed := (Option.some_get isSome_receivesTwo).symm
  have apart (index index' : Fin descLen) (differ : index ≠ index') :
      Apart (128 * (index.val + 1), rxFragBufSz) (128 * (index'.val + 1), rxFragBufSz) := by
    have unequal : index.val ≠ index'.val := fun same => differ (Fin.ext same)
    unfold Apart rxFragBufSz
    omega
  rcases receives_all apart (by decide +kernel) executed with ⟨stores, _, all⟩
  exact ⟨_, executed, stores, all (by decide +kernel), by decide +kernel⟩

end Runs

end Receiver

end Lpc17xx.Emac
