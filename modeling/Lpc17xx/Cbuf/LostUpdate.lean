import Lpc17xx.Cbuf.Shared

/-!
# Lost updates of `free_space`

As long as neither task stores `free_space` while the other has loaded it and not yet
stored, `free_space` accounts for every finished call and the unread bytes stay where
they are.  The invariant adds to `free_space` what the calls under way have copied and
not yet accounted for.
-/

namespace Lpc17xx.Cbuf

open Lpc17xx.Ring
open Lpc17xx.Transition

/-- Bytes that the push under way has copied and not yet accounted for. -/
def Pusher.copied : Pusher → Nat
  | .idle | .test _ _ => 0
  | .copy rest len => len.toNat - rest.length
  | .store len _ => len.toNat

/-- Bytes that the pop under way has copied and not yet accounted for. -/
def Popper.copied : Popper → Nat
  | .idle | .test _ => 0
  | .copy rest len => len.toNat - rest
  | .store len _ => len.toNat

/-- By how much the push under way is about to change what it has loaded. -/
def Pusher.change : Pusher → Option UInt32
  | .store len _ => some len
  | .idle | .test _ _ | .copy _ _ => none

/-- By how much the pop under way is about to change what it has loaded. -/
def Popper.change : Popper → Option UInt32
  | .store len _ => some len
  | .idle | .test _ | .copy _ _ => none

/-- What the push under way has found out and relies on. -/
def Pusher.Fits (cbuf : CircularBuf) : Pusher → Prop
  | .idle => True
  | .test data len => data.length = len.toNat
  | .copy rest len => rest.length ≤ len.toNat ∧ len.toNat ≤ cbuf.freeSpace.toNat
  | .store len loaded => len.toNat ≤ cbuf.freeSpace.toNat ∧ loaded = cbuf.freeSpace

/-- What the pop under way has found out and relies on. -/
def Popper.Fits (cbuf : CircularBuf) : Popper → Prop
  | .idle | .test _ => True
  | .copy rest len => rest ≤ len.toNat ∧ len.toNat + cbuf.freeSpace.toNat ≤ cbuf.buffer.length
  | .store len loaded =>
      len.toNat + cbuf.freeSpace.toNat ≤ cbuf.buffer.length ∧ loaded = cbuf.freeSpace

theorem Pusher.Fits.copied_le {cbuf : CircularBuf} {pusher : Pusher} (fits : pusher.Fits cbuf) :
    pusher.copied ≤ cbuf.freeSpace.toNat := by
  cases pusher with
  | idle => exact Nat.zero_le _
  | test data len => exact Nat.zero_le _
  | copy rest len => exact (Nat.sub_le _ _).trans fits.2
  | store len loaded => exact fits.1

theorem Popper.Fits.copied_le {cbuf : CircularBuf} {popper : Popper} (fits : popper.Fits cbuf)
    (free_le : cbuf.freeSpace.toNat ≤ cbuf.buffer.length) :
    popper.copied + cbuf.freeSpace.toNat ≤ cbuf.buffer.length := by
  cases popper with
  | idle => exact (Nat.zero_add _).trans_le free_le
  | test len => exact (Nat.zero_add _).trans_le free_le
  | copy rest len => exact (Nat.add_le_add_right (Nat.sub_le _ _) _).trans fits.2
  | store len loaded => exact fits.1

namespace Shared

/-- No call is in progress. -/
def Quiescent (s : Shared) : Prop :=
  s.pusher = .idle ∧ s.popper = .idle

/-- What the two tasks rely on: between calls the bytes in use are those pushed and not
popped, and at any time the unread bytes are in the buffer, behind the read pointer, and
what was popped was pushed before. -/
structure Consistent (s : Shared) : Prop where
  counted : s.Quiescent →
    (s.cbuf.bufSz - s.cbuf.freeSpace).toNat + s.popped.length = s.pushed.length
  unread : window s.cbuf.buffer s.cbuf.tail (s.pushed.length - s.popped.length) =
    s.pushed.drop s.popped.length
  fifo : s.popped = s.pushed.take s.popped.length

/-- Neither task stores a changed `free_space` while the other one has loaded it and not
yet stored. -/
def NoOverlap (s : Shared) : SharedEvent → Prop
  | .push _ | .pop _ => True
  | .pusher => ∀ len loaded, s.pusher = .store len loaded → len ≠ 0 →
      ∀ len' loaded', s.popper ≠ .store len' loaded'
  | .popper => ∀ len loaded, s.popper = .store len loaded → len ≠ 0 →
      ∀ len' loaded', s.pusher ≠ .store len' loaded'

instance (s : Shared) : ∀ event, Decidable (s.NoOverlap event)
  | .push _ | .pop _ => inferInstanceAs (Decidable True)
  | .pusher =>
      decidable_of_iff (s.pusher.change.getD 0 ≠ 0 → s.popper.change = none) (by
        unfold NoOverlap
        cases s.pusher <;> cases s.popper <;> simp [Pusher.change, Popper.change])
  | .popper =>
      decidable_of_iff (s.popper.change.getD 0 ≠ 0 → s.pusher.change = none) (by
        unfold NoOverlap
        cases s.pusher <;> cases s.popper <;> simp [Pusher.change, Popper.change])

/-- What holds as long as the two do not overlap. -/
structure Inv (s : Shared) : Prop where
  size : s.cbuf.bufSz.toNat = s.cbuf.buffer.length
  head : s.cbuf.head = s.pushed.length % s.cbuf.buffer.length
  tail : s.cbuf.tail = s.popped.length % s.cbuf.buffer.length
  free_le : s.cbuf.freeSpace.toNat ≤ s.cbuf.buffer.length
  account : s.cbuf.freeSpace.toNat + s.pushed.length + s.popper.copied =
    s.cbuf.buffer.length + s.popped.length + s.pusher.copied
  pusher : s.pusher.Fits s.cbuf
  popper : s.popper.Fits s.cbuf
  unread : window s.cbuf.buffer s.cbuf.tail (s.pushed.length - s.popped.length) =
    s.pushed.drop s.popped.length
  fifo : s.popped = s.pushed.take s.popped.length

theorem Inv.start {capacity : UInt32} {block : List UInt8}
    (size : block.length = capacity.toNat) : (start capacity block).Inv where
  size := size.symm
  head := (Nat.zero_mod _).symm
  tail := (Nat.zero_mod _).symm
  free_le := size.symm.le
  account := by
    change capacity.toNat + 0 + 0 = block.length + 0 + 0
    rw [size]
  pusher := trivial
  popper := trivial
  unread := rfl
  fifo := rfl

section Step

variable {s after : Shared}

/-- Nothing is popped that was not pushed. -/
theorem Inv.popped_le (inv : s.Inv) : s.popped.length ≤ s.pushed.length := by
  have account := inv.account
  have room := inv.popper.copied_le inv.free_le
  omega

theorem Inv.consistent (inv : s.Inv) : s.Consistent where
  counted := by
    rintro ⟨pusher, popper⟩
    have account := inv.account
    have free_le := inv.free_le
    simp only [pusher, popper, Pusher.copied, Popper.copied] at account
    have le : s.cbuf.freeSpace ≤ s.cbuf.bufSz := by
      rw [UInt32.le_iff_toNat_le, inv.size]
      exact free_le
    rw [UInt32.toNat_sub_of_le _ _ le, inv.size]
    omega
  unread := inv.unread
  fifo := inv.fifo

/-- There is room for the next byte of a push. -/
theorem Inv.room (inv : s.Inv) {byte : UInt8} {rest : List UInt8} {len : UInt32}
    (here : s.pusher = .copy (byte :: rest) len) :
    s.pushed.length - s.popped.length < s.cbuf.buffer.length := by
  have account := inv.account
  have fits := inv.pusher
  have room := inv.popper.copied_le inv.free_le
  simp only [here, Pusher.copied, Pusher.Fits, List.length_cons] at account fits
  omega

/-- One byte of a push. -/
theorem Inv.pushByte (inv : s.Inv) {byte : UInt8} {rest : List UInt8} {len : UInt32}
    (here : s.pusher = .copy (byte :: rest) len) :
    Inv { s with
      cbuf := s.cbuf.pushByte byte
      pusher := .copy rest len
      pushed := s.pushed ++ [byte] } := by
  have room := inv.room here
  have popped_le := inv.popped_le
  have length : (s.cbuf.pushByte byte).buffer.length = s.cbuf.buffer.length :=
    List.length_set
  have head : s.cbuf.head =
      (s.cbuf.tail + (s.pushed.length - s.popped.length)) % s.cbuf.buffer.length := by
    rw [inv.head, inv.tail, Nat.mod_add_mod, Nat.add_sub_cancel' popped_le]
  have inside : s.cbuf.head < s.cbuf.buffer.length := by
    rw [head]
    exact Nat.mod_lt _ (Nat.zero_lt_of_lt room)
  have fits := inv.pusher
  simp only [here, Pusher.Fits, List.length_cons] at fits
  constructor
  · exact inv.size.trans length.symm
  · change s.cbuf.advance s.cbuf.head = (s.pushed ++ [byte]).length % _
    rw [CircularBuf.advance_eq_mod inv.size inside, inv.head, Nat.mod_add_mod, length,
      List.length_append, List.length_singleton]
  · rw [length]
    exact inv.tail
  · rw [length]
    exact inv.free_le
  · have account := inv.account
    simp only [here, Pusher.copied, List.length_cons] at account
    change s.cbuf.freeSpace.toNat + (s.pushed ++ [byte]).length + s.popper.copied =
      (s.cbuf.pushByte byte).buffer.length + s.popped.length + (len.toNat - rest.length)
    rw [length, List.length_append, List.length_singleton]
    omega
  · exact ⟨by omega, fits.2⟩
  · have popper := inv.popper
    change s.popper.Fits (s.cbuf.pushByte byte)
    unfold Popper.Fits at popper ⊢
    rw [length]
    exact popper
  · change window (s.cbuf.buffer.set s.cbuf.head byte) s.cbuf.tail
      ((s.pushed ++ [byte]).length - s.popped.length) = (s.pushed ++ [byte]).drop s.popped.length
    rw [List.length_append, List.length_singleton, Nat.sub_add_comm popped_le, head,
      window_set_snoc s.cbuf.buffer s.cbuf.tail byte room, inv.unread,
      List.drop_append_of_le_length popped_le]
  · change s.popped = (s.pushed ++ [byte]).take s.popped.length
    rw [List.take_append_of_le_length popped_le]
    exact inv.fifo

/-- One byte of a pop. -/
theorem Inv.popByte (inv : s.Inv) {rest : Nat} {len : UInt32}
    (here : s.popper = .copy (rest + 1) len) :
    Inv { s with
      cbuf := s.cbuf.popByte.2
      popper := .copy rest len
      popped := s.popped ++ [s.cbuf.popByte.1] } := by
  have account := inv.account
  have fits := inv.popper
  simp only [here, Popper.copied, Popper.Fits] at account fits
  have held : s.popped.length < s.pushed.length := by
    have copied_le := inv.pusher.copied_le
    omega
  have inside : s.cbuf.tail < s.cbuf.buffer.length := by
    rw [inv.tail]
    exact Nat.mod_lt _ (by omega)
  have one : 1 ≤ s.pushed.length - s.popped.length := by
    omega
  have byte : s.cbuf.popByte.1 = s.pushed[s.popped.length] := by
    have first := take_window s.cbuf.buffer s.cbuf.tail one
    rw [inv.unread, List.drop_eq_getElem_cons held] at first
    simp only [window, List.range_one, List.map_singleton, Nat.add_zero,
      Nat.mod_eq_of_lt inside, List.take_succ_cons, List.take_zero] at first
    exact (List.singleton_inj.mp first).symm
  have count : (s.popped ++ [s.cbuf.popByte.1]).length = s.popped.length + 1 := by
    rw [List.length_append, List.length_singleton]
  constructor
  · exact inv.size
  · exact inv.head
  · change s.cbuf.advance s.cbuf.tail = (s.popped ++ [s.cbuf.popByte.1]).length % _
    rw [CircularBuf.advance_eq_mod inv.size inside, inv.tail, Nat.mod_add_mod, count]
    rfl
  · exact inv.free_le
  · change s.cbuf.freeSpace.toNat + s.pushed.length + (len.toNat - rest) =
      s.cbuf.buffer.length + (s.popped ++ [s.cbuf.popByte.1]).length + s.pusher.copied
    rw [count]
    omega
  · exact inv.pusher
  · exact ⟨by omega, fits.2⟩
  · change window s.cbuf.buffer (s.cbuf.advance s.cbuf.tail)
      (s.pushed.length - (s.popped ++ [s.cbuf.popByte.1]).length) =
        s.pushed.drop (s.popped ++ [s.cbuf.popByte.1]).length
    rw [count, CircularBuf.advance_eq_mod inv.size inside, Nat.sub_add_eq,
      ← drop_window s.cbuf.buffer s.cbuf.tail one, inv.unread, List.drop_drop]
  · change s.popped ++ [s.cbuf.popByte.1] =
      s.pushed.take (s.popped ++ [s.cbuf.popByte.1]).length
    rw [count, List.take_succ_eq_append_getElem held, ← inv.fifo, byte]

/-- The store at the end of a push.  The other task has nothing loaded, or nothing is
changed. -/
theorem Inv.pusherStore (inv : s.Inv) {len loaded : UInt32} (here : s.pusher = .store len loaded)
    (alone : len ≠ 0 → ∀ len' loaded', s.popper ≠ .store len' loaded') :
    Inv { s with cbuf := { s.cbuf with freeSpace := loaded - len }, pusher := .idle } := by
  have account := inv.account
  have fits := inv.pusher
  simp only [here, Pusher.copied, Pusher.Fits] at account fits
  rcases fits with ⟨len_le, rfl⟩
  have free : (s.cbuf.freeSpace - len).toNat = s.cbuf.freeSpace.toNat - len.toNat :=
    UInt32.toNat_sub_of_le _ _ (UInt32.le_iff_toNat_le.mpr len_le)
  have free_le := inv.free_le
  constructor
  · exact inv.size
  · exact inv.head
  · exact inv.tail
  · change (s.cbuf.freeSpace - len).toNat ≤ s.cbuf.buffer.length
    omega
  · change (s.cbuf.freeSpace - len).toNat + s.pushed.length + s.popper.copied =
      s.cbuf.buffer.length + s.popped.length + 0
    omega
  · trivial
  · have popper := inv.popper
    change s.popper.Fits { s.cbuf with freeSpace := s.cbuf.freeSpace - len }
    cases other : s.popper with
    | idle => trivial
    | test len' => trivial
    | copy rest len' =>
        simp only [other, Popper.Fits] at popper ⊢
        omega
    | store len' loaded' =>
        have nothing : len = 0 := by
          by_contra changed
          exact alone changed len' loaded' other
        rw [nothing, UInt32.sub_zero, ← other]
        exact popper
  · exact inv.unread
  · exact inv.fifo

/-- The store at the end of a pop. -/
theorem Inv.popperStore (inv : s.Inv) {len loaded : UInt32} (here : s.popper = .store len loaded)
    (alone : len ≠ 0 → ∀ len' loaded', s.pusher ≠ .store len' loaded') :
    Inv { s with cbuf := { s.cbuf with freeSpace := loaded + len }, popper := .idle } := by
  have account := inv.account
  have fits := inv.popper
  simp only [here, Popper.copied, Popper.Fits] at account fits
  rcases fits with ⟨len_le, rfl⟩
  have free : (s.cbuf.freeSpace + len).toNat = s.cbuf.freeSpace.toNat + len.toNat := by
    have bound := s.cbuf.bufSz.toNat_lt
    rw [inv.size] at bound
    rw [UInt32.toNat_add, Nat.mod_eq_of_lt (by omega)]
  constructor
  · exact inv.size
  · exact inv.head
  · exact inv.tail
  · change (s.cbuf.freeSpace + len).toNat ≤ s.cbuf.buffer.length
    omega
  · change (s.cbuf.freeSpace + len).toNat + s.pushed.length + 0 =
      s.cbuf.buffer.length + s.popped.length + s.pusher.copied
    omega
  · have pusher := inv.pusher
    change s.pusher.Fits { s.cbuf with freeSpace := s.cbuf.freeSpace + len }
    cases other : s.pusher with
    | idle => trivial
    | test data len' =>
        rw [other] at pusher
        exact pusher
    | copy rest len' =>
        simp only [other, Pusher.Fits] at pusher ⊢
        omega
    | store len' loaded' =>
        have nothing : len = 0 := by
          by_contra changed
          exact alone changed len' loaded' other
        rw [nothing, UInt32.add_zero, ← other]
        exact pusher
  · trivial
  · exact inv.unread
  · exact inv.fifo

/-- A step that moves the push on without copying or storing. -/
theorem Inv.moves_pusher (inv : s.Inv) {pusher : Pusher} (copied : pusher.copied = s.pusher.copied)
    (fits : pusher.Fits s.cbuf) : Inv { s with pusher } :=
  { inv with
    account := by
      rw [copied]
      exact inv.account
    pusher := fits }

/-- A step that moves the pop on without copying or storing. -/
theorem Inv.moves_popper (inv : s.Inv) {popper : Popper} (copied : popper.copied = s.popper.copied)
    (fits : popper.Fits s.cbuf) : Inv { s with popper } :=
  { inv with
    account := by
      rw [copied]
      exact inv.account
    popper := fits }

theorem Inv.pusherStep (inv : s.Inv) (alone : s.NoOverlap .pusher)
    (taken : s.pusherStep = some after) : after.Inv := by
  cases here : s.pusher with
  | idle =>
      simp only [Shared.pusherStep, here] at taken
      contradiction
  | test data len =>
      simp only [Shared.pusherStep, here] at taken
      cases taken
      have length := inv.pusher
      simp only [here, Pusher.Fits] at length
      split
      · exact inv.moves_pusher (by rw [here]; rfl) trivial
      · rename_i fits
        apply inv.moves_pusher
        · rw [here]
          change len.toNat - data.length = 0
          rw [length, Nat.sub_self]
        · exact ⟨length.le, UInt32.le_iff_toNat_le.mp (UInt32.not_lt.mp fits)⟩
  | copy rest len =>
      cases rest with
      | nil =>
          simp only [Shared.pusherStep, here] at taken
          cases taken
          have fits := inv.pusher
          simp only [here, Pusher.Fits] at fits
          apply inv.moves_pusher
          · rw [here]
            rfl
          · exact ⟨fits.2, rfl⟩
      | cons byte rest =>
          simp only [Shared.pusherStep, here] at taken
          cases taken
          exact inv.pushByte here
  | store len loaded =>
      simp only [Shared.pusherStep, here] at taken
      cases taken
      exact inv.pusherStore here (alone len loaded here)

theorem Inv.popperStep (inv : s.Inv) (alone : s.NoOverlap .popper)
    (taken : s.popperStep = some after) : after.Inv := by
  cases here : s.popper with
  | idle =>
      simp only [Shared.popperStep, here] at taken
      contradiction
  | test len =>
      simp only [Shared.popperStep, here] at taken
      cases taken
      split
      · exact inv.moves_popper (by rw [here]; rfl) trivial
      · rename_i held
        have free_le := inv.free_le
        have le : s.cbuf.freeSpace ≤ s.cbuf.bufSz := by
          rw [UInt32.le_iff_toNat_le, inv.size]
          exact free_le
        have len_le := UInt32.le_iff_toNat_le.mp (UInt32.not_lt.mp held)
        rw [UInt32.toNat_sub_of_le _ _ le, inv.size] at len_le
        apply inv.moves_popper
        · rw [here]
          change len.toNat - len.toNat = 0
          rw [Nat.sub_self]
        · exact ⟨Nat.le_refl _, by omega⟩
  | copy rest len =>
      cases rest with
      | zero =>
          simp only [Shared.popperStep, here] at taken
          cases taken
          have fits := inv.popper
          simp only [here, Popper.Fits] at fits
          apply inv.moves_popper
          · rw [here]
            rfl
          · exact ⟨fits.2, rfl⟩
      | succ rest =>
          simp only [Shared.popperStep, here] at taken
          cases taken
          exact inv.popByte here
  | store len loaded =>
      simp only [Shared.popperStep, here] at taken
      cases taken
      exact inv.popperStore here (alone len loaded here)

/-- Every event that does not overlap keeps the invariant. -/
theorem Inv.step {event : SharedEvent} (inv : s.Inv) (alone : s.NoOverlap event)
    (taken : Shared.step s event = some after) : after.Inv := by
  cases event with
  | push data =>
      rcases Option.ite_none_right_eq_some.mp taken with ⟨⟨idle, length⟩, taken⟩
      cases taken
      apply inv.moves_pusher
      · rw [idle]
        rfl
      · exact (Serial.toNat_ofNat length).symm
  | pop len =>
      rcases Option.ite_none_right_eq_some.mp taken with ⟨idle, taken⟩
      cases taken
      apply inv.moves_popper
      · rw [idle]
        rfl
      · trivial
  | pusher => exact inv.pusherStep alone taken
  | popper => exact inv.popperStep alone taken

end Step

end Shared

/-- In every run of pushes and pops of any lengths, interleaved in any way in which
neither task stores `free_space` between the load and the store of the other, the
buffer stays consistent. -/
theorem shared_consistent {capacity : UInt32} {block : List UInt8}
    (size : block.length = capacity.toNat) {events : List SharedEvent}
    (alone : Guarded Shared.step Shared.NoOverlap (Shared.start capacity block) events) :
    Along Shared.step (fun _ _ after => after.Consistent) (Shared.start capacity block) events := by
  apply along_of_guarded _ _ (Shared.Inv.start size) alone
  · intro s event after inv here taken
    exact inv.step here taken
  · intro s event after inv here taken
    exact (inv.step here taken).consistent

/-- Two bytes are pushed.  Then a byte is popped while one more is pushed, but the pop loads
`free_space` when the push has stored it. -/
def pushAndPop : List SharedEvent :=
  [.push [72, 101], .pusher, .pusher, .pusher, .pusher, .pusher, .pop 1, .popper, .push [108],
    .pusher, .popper, .pusher, .pusher, .pusher, .popper, .popper]

theorem shared_consistent_pushAndPop :
    Along Shared.step (fun _ _ after => after.Consistent) (Shared.start 4 [0, 0, 0, 0]) pushAndPop ∧
      (run Shared.step (Shared.start 4 [0, 0, 0, 0]) pushAndPop).map
        (fun s => (s.pusher, s.popper, s.popped, s.cbuf.circularBufCurUsage)) =
          some (.idle, .idle, [72], 2) :=
  ⟨shared_consistent rfl (by decide +kernel), rfl⟩

/-- A pop loads `free_space`, a push of one byte comes in between, and the pop stores
what it has computed from the old value: one byte in the buffer is forgotten. -/
theorem shared_not_consistent_overlap :
    ∃ final, run Shared.step (Shared.start 4 [0, 0, 0, 0])
        [.push [72, 101], .pusher, .pusher, .pusher, .pusher, .pusher, .pop 1, .popper, .popper,
          .popper, .push [108], .pusher, .pusher, .pusher, .pusher, .popper] = some final ∧
      final.Quiescent ∧ final.pushed.length = 3 ∧ final.popped.length = 1 ∧
      final.cbuf.circularBufCurUsage = 1 ∧ ¬final.Consistent := by
  refine ⟨_, rfl, ⟨rfl, rfl⟩, rfl, rfl, rfl, ?_⟩
  intro consistent
  exact absurd (consistent.counted ⟨rfl, rfl⟩) (by decide)

end Lpc17xx.Cbuf
