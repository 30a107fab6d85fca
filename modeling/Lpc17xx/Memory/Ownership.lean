import Mathlib.Algebra.Order.Group.Multiset
import Mathlib.Algebra.Order.Group.Nat
import Mathlib.Algebra.Order.BigOperators.Group.List
import Mathlib.Data.Finset.Basic
import Mathlib.Tactic.Abel

/-!
# Who owns the blocks of a heap

An allocator is known by the set of its live blocks.  The state of a program owns
the blocks that some structure in it refers to; a function that runs has further
blocks in hand.  `Passes` says what a function does to the blocks in hand when
nothing else goes astray.  Its rules are one for each thing that can happen to a
block: it is allocated, freed, or moved between the hand and the state.
-/

namespace Lpc17xx.Memory

universe u v w

/-- A heap with its two operations.  `getMem` is for a positive number of bytes,
and has no result when the heap is exhausted. -/
structure Allocator (H : Type u) (B : Type v) [DecidableEq B] where
  live : H → Finset B
  getMem : H → Nat → Option (B × H)
  freeMem : H → B → H
  fresh : ∀ {heap size block heap'}, getMem heap size = some (block, heap') → block ∉ live heap
  live_getMem : ∀ {heap size block heap'}, getMem heap size = some (block, heap') →
    live heap' = insert block (live heap)
  live_freeMem : ∀ {heap block}, block ∈ live heap →
    live (freeMem heap block) = (live heap).erase block

namespace Allocator

/-- A heap that hands out numbers and never ends. -/
def counting : Allocator (List Nat) Nat where
  live heap := heap.toFinset
  getMem heap _ := some (heap.sum + 1, (heap.sum + 1) :: heap)
  freeMem heap block := heap.filter (· ≠ block)
  fresh := by
    intro heap size block heap' got
    cases got
    intro member
    have bound := List.le_sum_of_mem (List.mem_toFinset.mp member)
    exact absurd bound (by omega)
  live_getMem := by
    intro heap size block heap' got
    cases got
    exact List.toFinset_cons
  live_freeMem := by
    intro heap block _
    ext other
    simp [and_comm]

variable {H : Type u} {B : Type v} [DecidableEq B] (mem : Allocator H B) {heap heap' : H}

/-- Requests of these sizes, one after the other, all find a block, where everybody else
changes the heap before each as the function beside it says. -/
def Serves : H → List ((H → H) × Nat) → Prop
  | _, [] => True
  | heap, (others, size) :: requests =>
      ∃ block heap', mem.getMem (others heap) size = some (block, heap') ∧ Serves heap' requests

/-- The next requests of up to `limit` bytes, so many of them, all find a block, whichever of
the blocks found are freed again at once. -/
def Spares (limit : Nat) : Nat → H → Prop
  | 0, _ => True
  | n + 1, heap =>
      ∀ size, 0 < size → size ≤ limit → ∃ block heap',
        mem.getMem heap size = some (block, heap') ∧
          Spares limit n heap' ∧ Spares limit n (mem.freeMem heap' block)

theorem Spares.of_le {mem : Allocator H B} {limit fewer n : Nat}
    (spares : mem.Spares limit n heap) (le : fewer ≤ n) : mem.Spares limit fewer heap := by
  induction n generalizing fewer heap with
  | zero => rwa [Nat.le_zero.mp le]
  | succ n ih =>
      cases fewer with
      | zero => trivial
      | succ fewer =>
          intro size positive bound
          rcases spares size positive bound with ⟨block, heap', got, kept, freed⟩
          exact ⟨block, heap', got, ih kept (Nat.le_of_succ_le_succ le),
            ih freed (Nat.le_of_succ_le_succ le)⟩

theorem val_getMem {size : Nat} {block : B} (got : mem.getMem heap size = some (block, heap')) :
    (mem.live heap').val = {block} + (mem.live heap).val := by
  rw [mem.live_getMem got, Finset.insert_val_of_notMem (mem.fresh got), Multiset.singleton_add]

theorem val_freeMem {block : B} {rest : Multiset B}
    (holds : (mem.live heap).val = {block} + rest) :
    (mem.live (mem.freeMem heap block)).val = rest := by
  have live : block ∈ mem.live heap := by
    rw [← Finset.mem_val, holds]
    exact Multiset.mem_add.mpr (.inl (Multiset.mem_singleton_self block))
  rw [mem.live_freeMem live, Finset.erase_val, holds, Multiset.singleton_add,
    Multiset.erase_cons_head]

end Allocator

section Ownership

variable {σ : Type w} {B : Type v} {live owned : σ → Multiset B} {s middle after : σ}

/-- Besides the blocks that the state owns, exactly those in hand are live. -/
def Holds (live owned : σ → Multiset B) (s : σ) (hand : Multiset B) : Prop :=
  live s = owned s + hand

/-- On the way from `s` to `after` the blocks in hand change from `hand` to `hand'`,
whatever else is live. -/
def Passes (live owned : σ → Multiset B) (s after : σ) (hand hand' : Multiset B) : Prop :=
  ∀ rest, Holds live owned s (hand + rest) → Holds live owned after (hand' + rest)

variable {hand hand' hand'' : Multiset B} {block : B}

namespace Passes

theorem refl (hand : Multiset B) : Passes live owned s s hand hand :=
  fun _ holds => holds

theorem trans (first : Passes live owned s middle hand hand')
    (second : Passes live owned middle after hand' hand'') :
    Passes live owned s after hand hand'' :=
  fun rest holds => second rest (first rest holds)

/-- A block is allocated. -/
theorem allocated (got : live after = {block} + live s) (kept : owned after = owned s) :
    Passes live owned s after hand ({block} + hand) := by
  intro rest holds
  rw [Holds, got, holds, kept]
  abel

/-- A block in hand is freed. -/
theorem freed (kept : owned after = owned s)
    (gone : ∀ rest, live s = {block} + rest → live after = rest) :
    Passes live owned s after ({block} + hand) hand := by
  intro rest holds
  apply gone
  rw [holds, kept]
  abel

/-- Blocks move between the hand and the state. -/
theorem moved (kept : live after = live s) (balance : owned after + hand' = owned s + hand) :
    Passes live owned s after hand hand' := by
  intro rest holds
  rw [Holds, kept, holds, ← add_assoc, ← add_assoc, balance]

/-- What a function leaves alone can be in hand meanwhile. -/
theorem frame (passes : Passes live owned s after hand hand') (more : Multiset B) :
    Passes live owned s after (hand + more) (hand' + more) := by
  intro rest holds
  rw [Holds, add_assoc]
  apply passes
  rw [← add_assoc]
  exact holds

end Passes

end Ownership

end Lpc17xx.Memory
