import Lpc17xx.Protocol.Handlers

/-!
# What the parts of a handler touch

An action is confined below an address when every access it makes ends there at
the latest and the cursor stays where it is.  Confinement goes through
sequencing and case distinction, so that the code of a handler is its proof; only
`advance` moves the cursor and is treated by itself.
-/

namespace Lpc17xx.Protocol

open Lpc17xx.Memory
open Lpc17xx.Tcp

/-- The packet has its accesses inside the frame, its cursor inside or at the end
of it, and in `cur_data_length` what is left behind the cursor. -/
structure InFrame (len : Nat) (pkt : Packet) : Prop where
  accesses : ∀ access ∈ pkt.accesses, access.start + access.size ≤ len
  curData_le : pkt.curData ≤ len
  curDataLength : pkt.curDataLength.toNat = len - pkt.curData

/-- What an action does to the packet: new accesses, all below `limit`, in front
of the old ones, and no movement of the cursor. -/
structure ConfinedStep (limit : Nat) (before after : Packet) : Prop where
  accesses : ∃ new, after.accesses = new ++ before.accesses ∧
    ∀ access ∈ new, access.start + access.size ≤ limit
  curData : after.curData = before.curData
  curDataLength : after.curDataLength = before.curDataLength

theorem ConfinedStep.refl {limit : Nat} {pkt pkt' : Packet}
    (accesses : pkt'.accesses = pkt.accesses) (curData : pkt'.curData = pkt.curData)
    (curDataLength : pkt'.curDataLength = pkt.curDataLength) :
    ConfinedStep limit pkt pkt' :=
  ⟨⟨[], accesses, fun _ member => nomatch member⟩, curData, curDataLength⟩

theorem ConfinedStep.trans {limit : Nat} {first second third : Packet}
    (early : ConfinedStep limit first second) (late : ConfinedStep limit second third) :
    ConfinedStep limit first third := by
  rcases early.accesses with ⟨new, joined, bounded⟩
  rcases late.accesses with ⟨new', joined', bounded'⟩
  refine ⟨⟨new' ++ new, ?_, ?_⟩, late.curData.trans early.curData,
    late.curDataLength.trans early.curDataLength⟩
  · rw [joined', joined, List.append_assoc]
  · intro access member
    rcases List.mem_append.mp member with recent | old
    · exact bounded' access recent
    · exact bounded access old

/-- What was touched before stays on record. -/
theorem ConfinedStep.mem {limit : Nat} {before after : Packet} {access : Access}
    (step : ConfinedStep limit before after) (member : access ∈ before.accesses) :
    access ∈ after.accesses := by
  rcases step.accesses with ⟨new, joined, _⟩
  rw [joined]
  exact List.mem_append_right new member

/-- A step confined to the frame leaves the packet in it. -/
theorem ConfinedStep.inFrame {len : Nat} {before after : Packet}
    (step : ConfinedStep len before after) (inside : InFrame len before) : InFrame len after := by
  rcases step.accesses with ⟨new, joined, bounded⟩
  refine ⟨?_, ?_, ?_⟩
  · intro access member
    rw [joined] at member
    rcases List.mem_append.mp member with recent | old
    · exact bounded access recent
    · exact inside.accesses access old
  · rw [step.curData]
    exact inside.curData_le
  · rw [step.curDataLength, step.curData]
    exact inside.curDataLength

/-- The action is confined below `limit` from every stack. -/
def Confined {α : Type} (limit : Nat) (action : Rx α) : Prop :=
  ∀ s, ConfinedStep limit s.pkt (action s).2.pkt

/-- The stack after an action. -/
abbrev after {α : Type} (action : Rx α) (s : Stack) : Stack :=
  (action s).2

section After

variable {α β : Type} (s : Stack)

theorem after_bind (action : Rx α) (next : α → Rx β) :
    after (action >>= next) s = after (next (action s).1) (after action s) :=
  rfl

theorem after_ite {condition : Prop} [Decidable condition] (yes no : Rx α) :
    after (if condition then yes else no) s =
      if condition then after yes s else after no s := by
  by_cases holds : condition
  · rw [if_pos holds, if_pos holds]
  · rw [if_neg holds, if_neg holds]

theorem after_setHandler (handler : ProtocolType) :
    after (setHandler handler) s = { s with pkt := { s.pkt with handler := handler } } :=
  rfl

/-- The action leaves `field` as it is. -/
def Keeps {γ : Type} (field : Stack → γ) (action : Rx α) : Prop :=
  ∀ s, field (after action s) = field s

theorem Keeps.bind {γ : Type} {field : Stack → γ} {action : Rx α} {next : α → Rx β}
    (first : Keeps field action) (rest : ∀ value, Keeps field (next value)) :
    Keeps field (action >>= next) :=
  fun s => (rest _ _).trans (first s)

theorem Keeps.map {γ : Type} {field : Stack → γ} {action : Rx α} (kept : Keeps field action)
    (change : α → β) : Keeps field (change <$> action) :=
  fun s => kept s

theorem Keeps.ite {γ : Type} {field : Stack → γ} {condition : Prop} [Decidable condition]
    {yes no : Rx α} (accepted : Keeps field yes) (rejected : Keeps field no) :
    Keeps field (if condition then yes else no) := by
  by_cases holds : condition
  · rw [if_pos holds]
    exact accepted
  · rw [if_neg holds]
    exact rejected

end After

namespace Confined

variable {α β : Type} {limit : Nat}

theorem pure (value : α) : Confined limit (Pure.pure value : Rx α) :=
  fun _ => .refl rfl rfl rfl

theorem bind {action : Rx α} {next : α → Rx β} (first : Confined limit action)
    (rest : ∀ value, Confined limit (next value)) : Confined limit (action >>= next) :=
  fun s => (first s).trans (rest _ _)

theorem map {action : Rx α} (confined : Confined limit action) (change : α → β) :
    Confined limit (change <$> action) :=
  fun s => confined s

theorem ite {condition : Prop} [Decidable condition] {yes no : Rx α}
    (accepted : Confined limit yes) (rejected : Confined limit no) :
    Confined limit (if condition then yes else no) := by
  by_cases holds : condition
  · rw [if_pos holds]
    exact accepted
  · rw [if_neg holds]
    exact rejected

/-- A change of anything but the accesses and the cursor. -/
theorem modify {change : Stack → Stack} (accesses : ∀ s, (change s).pkt.accesses = s.pkt.accesses)
    (curData : ∀ s, (change s).pkt.curData = s.pkt.curData)
    (curDataLength : ∀ s, (change s).pkt.curDataLength = s.pkt.curDataLength) :
    Confined limit (modify change : Rx PUnit) :=
  fun s => .refl (accesses s) (curData s) (curDataLength s)

theorem get : Confined limit (get : Rx Stack) :=
  fun _ => .refl rfl rfl rfl

theorem setHandler (handler : ProtocolType) : Confined limit (setHandler handler) :=
  fun _ => .refl rfl rfl rfl

theorem touch {start size : Nat} (below : start + size ≤ limit) :
    Confined limit (touch start size) := by
  intro s
  refine ⟨⟨[⟨start, size⟩], rfl, ?_⟩, rfl, rfl⟩
  rintro access (_ | ⟨_, ⟨⟩⟩)
  exact below

theorem read8 {address : Nat} (below : address + 1 ≤ limit) : Confined limit (read8 address) :=
  (touch below).bind fun _ _ => .refl rfl rfl rfl

theorem read16 {address : Nat} (below : address + 2 ≤ limit) : Confined limit (read16 address) :=
  (touch below).bind fun _ _ => .refl rfl rfl rfl

theorem read32 {address : Nat} (below : address + 4 ≤ limit) : Confined limit (read32 address) :=
  (touch below).bind fun _ _ => .refl rfl rfl rfl

theorem readBytes {address size : Nat} (below : address + size ≤ limit) :
    Confined limit (readBytes address size) :=
  (touch below).bind fun _ _ => .refl rfl rfl rfl

theorem swapEndian16 {address : Nat} (below : address + 2 ≤ limit) :
    Confined limit (swapEndian16 address) :=
  (touch below).bind fun _ _ => .refl rfl rfl rfl

theorem swapEndian32 {address : Nat} (below : address + 4 ≤ limit) :
    Confined limit (swapEndian32 address) :=
  (touch below).bind fun _ _ => .refl rfl rfl rfl

theorem readTcpHeader {header : Nat} (below : header + 20 ≤ limit) :
    Confined limit (readTcpHeader header) :=
  (touch below).bind fun _ _ => .refl rfl rfl rfl

end Confined

/-- Moving the cursor on inside the frame keeps the packet in it. -/
theorem inFrame_advance {len : Nat} {s : Stack} {count : UInt32} (inside : InFrame len s.pkt)
    (room : s.pkt.curData + count.toNat ≤ len) : InFrame len (after (advance count) s).pkt := by
  refine ⟨inside.accesses, room, ?_⟩
  have left := inside.curDataLength
  change (s.pkt.curDataLength - count).toNat = len - (s.pkt.curData + count.toNat)
  rw [UInt32.toNat_sub_of_le]
  · omega
  · rw [UInt32.le_iff_toNat_le]
    omega

end Lpc17xx.Protocol
