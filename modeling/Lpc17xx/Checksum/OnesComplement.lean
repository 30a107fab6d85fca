import Mathlib.Algebra.BigOperators.Group.List.Basic
import Mathlib.Data.Nat.ModEq
import Mathlib.Tactic.Ring

/-!
# Ones' complement sums

Words of which `top` is the greatest are added with the carry brought back to the low
end.  Such a sum is an ordinary sum modulo `top`, which decides it but for the two
zeros.  Exchanging the two digits of every word multiplies the sum by the base, so a
sum that vanishes does so in either byte order.
-/

namespace Lpc17xx.Checksum

/-- The sum of two words, with its carry brought back. -/
def onesAdd (top first second : Nat) : Nat :=
  if first + second ≤ top then first + second else first + second - top

/-- The sum of a list of words. -/
def onesSum (top : Nat) (words : List Nat) : Nat :=
  words.foldl (onesAdd top) 0

/-- The carries of an ordinary sum, brought back once. -/
def foldCarry (base sum : Nat) : Nat :=
  sum % base + sum / base

/-- A word of two digits with the digits exchanged. -/
def exchangeDigits (base word : Nat) : Nat :=
  word % base * base + word / base

section Add

variable {top first second : Nat}

theorem onesAdd_modEq : onesAdd top first second ≡ first + second [MOD top] := by
  unfold onesAdd
  split
  · rfl
  · rename_i carry
    exact (Nat.sub_modulus_modEq_iff (Nat.le_of_not_le carry)).mpr rfl

theorem onesAdd_le (firstBound : first ≤ top) (secondBound : second ≤ top) :
    onesAdd top first second ≤ top := by
  unfold onesAdd
  split
  · assumption
  · omega

/-- A sum is nonzero as soon as one of its words is. -/
theorem onesAdd_ne_zero (nonzero : first ≠ 0 ∨ second ≠ 0) : onesAdd top first second ≠ 0 := by
  unfold onesAdd
  split
  · omega
  · omega

end Add

section Sum

variable {top : Nat}

/-- From any word on, the sum goes on modulo `top`. -/
theorem foldl_onesAdd_modEq (words : List Nat) (start : Nat) :
    words.foldl (onesAdd top) start ≡ start + words.sum [MOD top] := by
  induction words generalizing start with
  | nil => rfl
  | cons word words ih =>
      rw [List.foldl_cons, List.sum_cons, ← Nat.add_assoc]
      exact (ih _).trans (onesAdd_modEq.add_right _)

theorem onesSum_modEq (words : List Nat) : onesSum top words ≡ words.sum [MOD top] := by
  have fromZero := @foldl_onesAdd_modEq top words 0
  rwa [Nat.zero_add] at fromZero

theorem foldl_onesAdd_le {words : List Nat} (bound : ∀ word ∈ words, word ≤ top) {start : Nat}
    (startBound : start ≤ top) : words.foldl (onesAdd top) start ≤ top := by
  induction words generalizing start with
  | nil => exact startBound
  | cons word words ih =>
      exact ih (fun other member => bound other (.tail _ member))
        (onesAdd_le startBound (bound word (.head _)))

theorem foldl_onesAdd_ne_zero {words : List Nat} {start : Nat}
    (nonzero : start ≠ 0 ∨ ∃ word ∈ words, word ≠ 0) : words.foldl (onesAdd top) start ≠ 0 := by
  induction words generalizing start with
  | nil =>
      rcases nonzero with started | ⟨word, member, _⟩
      · exact started
      · contradiction
  | cons head words ih =>
      apply ih
      rcases nonzero with started | ⟨word, member, other⟩
      · exact .inl (onesAdd_ne_zero (.inl started))
      · rcases List.mem_cons.mp member with rfl | later
        · exact .inl (onesAdd_ne_zero (.inr other))
        · exact .inr ⟨word, later, other⟩

/-- A sum that vanishes modulo `top` is all ones, unless every word is zero. -/
theorem onesSum_eq_top {words : List Nat} (bound : ∀ word ∈ words, word ≤ top)
    (nonzero : ∃ word ∈ words, word ≠ 0) (vanishes : words.sum ≡ 0 [MOD top]) :
    onesSum top words = top := by
  have atMost : onesSum top words ≤ top := foldl_onesAdd_le bound (Nat.zero_le _)
  have other : onesSum top words ≠ 0 := foldl_onesAdd_ne_zero (.inr nonzero)
  have divides : top ∣ onesSum top words :=
    Nat.modEq_zero_iff_dvd.mp ((onesSum_modEq words).trans vanishes)
  exact Nat.le_antisymm atMost (Nat.le_of_dvd (Nat.pos_of_ne_zero other) divides)

end Sum

section Digits

variable {base : Nat}

theorem foldCarry_modEq (sum : Nat) : foldCarry (base + 1) sum ≡ sum [MOD base] := by
  have parts : sum = (sum % (base + 1) + sum / (base + 1)) + base * (sum / (base + 1)) := by
    have whole := Nat.mod_add_div sum (base + 1)
    rw [Nat.add_mul, Nat.one_mul] at whole
    omega
  conv_rhs => rw [parts]
  exact Nat.modEq_add_modulus_mul_iff.mpr rfl

/-- Exchanging the digits multiplies a word by the base, modulo the greatest word. -/
theorem exchangeDigits_modEq {top : Nat} (squared : base * base = top + 1) (word : Nat) :
    exchangeDigits base word ≡ base * word [MOD top] := by
  have parts : base * word = exchangeDigits base word + top * (word / base) := by
    have whole := Nat.mod_add_div word base
    calc
      base * word = base * (word % base + base * (word / base)) := by rw [whole]
      _ = word % base * base + base * base * (word / base) := by ring
      _ = exchangeDigits base word + top * (word / base) := by
          rw [squared, exchangeDigits]
          ring
  rw [parts]
  exact Nat.modEq_add_modulus_mul_iff.mpr rfl

theorem sum_exchangeDigits_modEq {top : Nat} (squared : base * base = top + 1)
    (words : List Nat) : (words.map (exchangeDigits base)).sum ≡ base * words.sum [MOD top] := by
  induction words with
  | nil => rfl
  | cons word words ih =>
      rw [List.map_cons, List.sum_cons, List.sum_cons, Nat.mul_add]
      exact (exchangeDigits_modEq squared word).add ih

end Digits

end Lpc17xx.Checksum
