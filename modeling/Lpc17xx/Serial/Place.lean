import Mathlib.Data.UInt
import Mathlib.Tactic.Common

/-!
# Serial numbers modulo `2^32`

A stream position is a natural number; what a machine keeps of it is its
residue, counted from some base number.  `place base n` is the residue of
position `n`.  Differences of residues recover differences of positions as
long as these stay below `2^32`, and their signed reading recovers the order
of positions as long as these stay below `2^31`, whatever the base is and
however often the counter has wrapped.
-/

namespace Lpc17xx.Serial

/-- The serial number `count` places after `base`. -/
def place (base : UInt32) (count : Nat) : UInt32 :=
  base + UInt32.ofNat count

@[simp]
theorem place_zero (base : UInt32) : place base 0 = base := by
  simp [place]

theorem place_add (base : UInt32) (first second : Nat) :
    place base (first + second) = place base first + UInt32.ofNat second := by
  simp only [place, UInt32.ofNat_add]
  grind

/-- Subtraction of serial numbers is subtraction of positions. -/
theorem place_sub_place (base : UInt32) {first second : Nat} (le : first ≤ second) :
    place base second - place base first = UInt32.ofNat (second - first) := by
  rcases Nat.exists_eq_add_of_le le with ⟨gap, rfl⟩
  rw [place_add, Nat.add_sub_cancel_left]
  grind

/-- A number below `2^32` survives the conversion to a machine word. -/
theorem toNat_ofNat {count : Nat} (bound : count < 2 ^ 32) :
    (UInt32.ofNat count).toNat = count := by
  rw [UInt32.toNat_ofNat']
  exact Nat.mod_eq_of_lt bound

/-- A machine difference below `2^31` is positive as a signed number exactly
when it is not zero. -/
theorem toInt32_pos_iff (word : UInt32) :
    0 < word.toInt32 ↔ 0 < word.toNat ∧ word.toNat < 2 ^ 31 := by
  rw [Int32.lt_iff_toInt_lt]
  change (0 : Int) < word.toBitVec.toInt ↔ _
  rw [BitVec.toInt_eq_toNat_cond, UInt32.toNat_toBitVec]
  have bound := word.toNat_lt
  split <;> omega

/-- The signed reading is not negative exactly on the lower half of the
words. -/
theorem toInt32_nonneg_iff (word : UInt32) :
    0 ≤ word.toInt32 ↔ word.toNat < 2 ^ 31 := by
  rw [Int32.le_iff_toInt_le]
  change (0 : Int) ≤ word.toBitVec.toInt ↔ _
  rw [BitVec.toInt_eq_toNat_cond, UInt32.toNat_toBitVec]
  have bound := word.toNat_lt
  split <;> omega

theorem toInt32_eq_zero_iff (word : UInt32) : word.toInt32 = 0 ↔ word = 0 := by
  constructor
  · intro zero
    rw [← word.toUInt32_toInt32, zero]
    rfl
  · rintro rfl
    rfl

/-- Serial order: `later` is at most half the number space ahead of
`earlier`. -/
def Le (earlier later : UInt32) : Prop :=
  0 ≤ (later - earlier).toInt32

instance (earlier later : UInt32) : Decidable (Le earlier later) :=
  inferInstanceAs (Decidable (_ ≤ _))

theorem Le.refl (number : UInt32) : Le number number := by
  simp [Le]

/-- A step ahead is in order exactly when it is shorter than half the number
space. -/
theorem le_add_iff (number step : UInt32) : Le number (number + step) ↔ step.toNat < 2 ^ 31 := by
  have gap : number + step - number = step := by
    grind
  rw [Le, gap, toInt32_nonneg_iff]

end Lpc17xx.Serial
