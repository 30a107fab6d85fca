import Lpc17xx.Memory.Word

/-!
# Ranges of addresses

A range is its first address and its size.  Memory that changes inside some ranges only is the
same in every range that is apart from all of them.
-/

namespace Lpc17xx.Memory

/-- Ranges without a common address. -/
def Apart (range other : Nat × Nat) : Prop :=
  range.1 + range.2 ≤ other.1 ∨ other.1 + other.2 ≤ range.1

instance (range other : Nat × Nat) : Decidable (Apart range other) :=
  inferInstanceAs (Decidable (_ ∨ _))

/-- Not empty, without the null pointer, and in an address space of 32 bits. -/
def Spans (range : Nat × Nat) : Prop :=
  0 < range.1 ∧ 0 < range.2 ∧ range.1 + range.2 ≤ 2 ^ 32

instance (range : Nat × Nat) : Decidable (Spans range) :=
  inferInstanceAs (Decidable (_ ∧ _ ∧ _))

/-- The address is in none of the ranges. -/
def Outside (ranges : List (Nat × Nat)) (address : Nat) : Prop :=
  ∀ range ∈ ranges, address < range.1 ∨ range.1 + range.2 ≤ address

instance (ranges : List (Nat × Nat)) (address : Nat) : Decidable (Outside ranges address) :=
  inferInstanceAs (Decidable (∀ range ∈ ranges, _))

/-- Two memories have the same bytes in a range. -/
def Same (memory memory' : Bytes) (range : Nat × Nat) : Prop :=
  ∀ i < range.2, memory' (range.1 + i) = memory (range.1 + i)

section Ranges

variable {memory memory' memory'' : Bytes} {range other : Nat × Nat} {ranges : List (Nat × Nat)}

theorem Apart.symm (apart : Apart range other) : Apart other range :=
  Or.symm apart

instance : Std.Symm Apart where
  symm := fun _ _ => Apart.symm

theorem Same.refl (memory : Bytes) (range : Nat × Nat) : Same memory memory range :=
  fun _ _ => rfl

theorem Same.trans (same : Same memory memory' range) (same' : Same memory' memory'' range) :
    Same memory memory'' range :=
  fun i bound => (same' i bound).trans (same i bound)

/-- A part of a range is the same where the range is. -/
theorem Same.part {start size offset size' : Nat} (same : Same memory memory' (start, size))
    (within : offset + size' ≤ size) : Same memory memory' (start + offset, size') := by
  intro i bound
  have at_i := same (offset + i) (by omega)
  rw [← Nat.add_assoc] at at_i
  exact at_i

theorem Same.load32 {start size : Nat} (same : Same memory memory' (start, size)) (offset : Nat)
    (within : offset + 4 ≤ size) :
    load32 memory' (start + offset) = load32 memory (start + offset) :=
  load32_congr (same.part within)

/-- The frame rule: what is apart from all that changes is the same. -/
theorem same_of_outside (kept : ∀ address, Outside ranges address →
      memory' address = memory address)
    (apart : ∀ changed ∈ ranges, Apart range changed) : Same memory memory' range := by
  intro i bound
  refine kept _ fun changed member => ?_
  rcases apart changed member with before | behind
  · exact .inl (by omega)
  · exact .inr (by omega)

/-- Ranges that are apart and not empty begin at different addresses. -/
theorem Apart.ne (apart : Apart range other) (filled : 0 < range.2) (filled' : 0 < other.2) :
    range.1 ≠ other.1 := by
  unfold Apart at apart
  omega

/-- So taking off those with the first one's address takes off that one. -/
theorem filter_eq_of_apart {start size : Nat} (apart : ((start, size) :: ranges).Pairwise Apart)
    (filled : ∀ each ∈ (start, size) :: ranges, 0 < each.2) :
    (((start, size) :: ranges).filter fun each => each.1 ≠ start) = ranges := by
  rcases List.pairwise_cons.mp apart with ⟨first, _⟩
  rcases List.forall_mem_cons.mp filled with ⟨here, others⟩
  rw [List.filter_cons_of_neg (by simp)]
  refine List.filter_eq_self.mpr fun each member => ?_
  exact decide_eq_true ((first each member).ne here (others each member)).symm

/-- The same when they come in another order. -/
theorem perm_filter_of_apart {start size : Nat} {rest : List (Nat × Nat)}
    (perm : ranges.Perm ((start, size) :: rest)) (apart : ranges.Pairwise Apart)
    (filled : ∀ each ∈ ranges, 0 < each.2) :
    (ranges.filter fun each => each.1 ≠ start).Perm rest := by
  have kept := perm.filter fun each => each.1 ≠ start
  rwa [filter_eq_of_apart (apart.perm perm Apart.symm)
    fun each member => filled each (perm.mem_iff.mpr member)] at kept

end Ranges

end Lpc17xx.Memory
