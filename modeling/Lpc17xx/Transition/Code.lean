import Mathlib.Order.Defs.Unbundled

/-!
# Code that may not return

A computation on states that returns at most once.  Code respects a relation of
states if it leads, whenever it returns, from a state to a related one.  What
respects a preorder is closed under everything that code is put together from.
-/

namespace Lpc17xx.Transition

/-- A computation on states; `none` is a computation that does not return. -/
abbrev Code (σ : Type) :=
  StateT σ Option

namespace Code

variable {σ α β : Type}

/-- Code that never returns. -/
def never : Code σ α :=
  fun _ => none

/-- Whenever the code returns, the state it leaves is related to the one it found. -/
def Respects (R : σ → σ → Prop) (code : Code σ α) : Prop :=
  ∀ state result after, code state = some (result, after) → R state after

/-- What two computations in a row return. -/
theorem bind_eq_some {first : Code σ α} {second : α → Code σ β} {state after : σ} {result : β} :
    (first >>= second) state = some (result, after) ↔
      ∃ value middle, first state = some (value, middle) ∧
        second value middle = some (result, after) := by
  change ((first state).bind fun outcome => second outcome.1 outcome.2) = _ ↔ _
  rw [Option.bind_eq_some_iff]
  constructor
  · rintro ⟨⟨value, middle⟩, here, there⟩
    exact ⟨value, middle, here, there⟩
  · rintro ⟨value, middle, here, there⟩
    exact ⟨(value, middle), here, there⟩

section Rules

variable {R : σ → σ → Prop}

theorem Respects.never : Respects R (Code.never : Code σ α) := by
  intro state result after returned
  cases returned

theorem Respects.mono {S : σ → σ → Prop} {code : Code σ α} (respects : Respects R code)
    (weaker : ∀ state after, R state after → S state after) : Respects S code :=
  fun state result after returned => weaker state after (respects state result after returned)

theorem Respects.ite {condition : Prop} [Decidable condition] {yes no : Code σ α}
    (taken : Respects R yes) (passed : Respects R no) :
    Respects R (if condition then yes else no) := by
  split
  · exact taken
  · exact passed

theorem Respects.pure [Std.Refl R] (value : α) : Respects R (Pure.pure value : Code σ α) := by
  intro state result after returned
  cases returned
  exact Std.Refl.refl state

theorem Respects.bind [IsTrans σ R] {first : Code σ α} {second : α → Code σ β}
    (here : Respects R first) (there : ∀ value, Respects R (second value)) :
    Respects R (first >>= second) := by
  intro state result after returned
  rcases bind_eq_some.mp returned with ⟨value, middle, begun, ended⟩
  exact IsTrans.trans state middle after (here state value middle begun)
    (there value middle result after ended)

/-- A loop, by induction on the list it goes through. -/
theorem Respects.forM [Std.Refl R] [IsTrans σ R] {body : α → Code σ Unit} (list : List α)
    (round : ∀ entry, Respects R (body entry)) : Respects R (list.forM body) := by
  induction list with
  | nil => exact .pure ()
  | cons entry rest ih =>
      change Respects R (body entry >>= fun _ => rest.forM body)
      exact .bind (round entry) fun _ => ih

end Rules

end Code

end Lpc17xx.Transition
